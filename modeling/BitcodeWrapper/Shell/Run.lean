import BitcodeWrapper.Shell.Builtin.Table
import BitcodeWrapper.Shell.Redirection

/-!
Scripts run. Every nested step uses one unit of fuel, and a script that has none left stops as if it had
been killed.
-/
namespace BitcodeWrapper.Shell

/-- The circumstances of a command: whether its failure is looked at, and whether nothing comes after it
in its process. -/
structure Manner where
  isTested : Bool
  isLast : Bool

namespace Manner

def plain : Manner := ⟨false, false⟩

def tested : Manner := ⟨true, false⟩

/-- As one of several commands. -/
def inner (m : Manner) : Manner := ⟨m.isTested, false⟩

end Manner

/-- How one round of a loop ends. -/
inductive Round where
  | complete
  | next
  | left
  deriving Repr, DecidableEq

/-- How many functions may run one in the other. -/
def depthLimit : Nat := 1000

/-- Runs one round of a loop. -/
def round (body : Sh Unit) : Sh Round := do
  try
    body
    return .complete
  catch
    | .breaks n => if n ≤ 1 then return .left else throw (.breaks (n - 1))
    | .continues n => if n ≤ 1 then return .next else throw (.continues (n - 1))
    | stop => throw stop

/-- The name of the command that is meant after `command` and its options, once it is known. -/
def meantCommand? : (fuel : Nat) → List String → Option String
  | 0, _ | _, [] => none
  | fuel + 1, name :: args =>
    if name != "command" then some name
    else
      match args.dropWhile (· = "-p") with
      | [] | ["--"] => none
      | "--" :: args => meantCommand? fuel args
      | a :: args => if a.startsWith "-" && a != "-" then some name else meantCommand? fuel (a :: args)

/-- Says on the diagnostics of before what is about to run. -/
def trace (streams : List (Nat × Nat)) (bindings : List (String × String)) (fields : List String) :
    Sh Unit := do
  if ← Sh.hasFlag 'x' then
    let start := (← Sh.value? "PS4").getD ""
    let shown := bindings.map (fun (name, value) => name ++ "=" ++ value) ++ fields
    let now := (← get).streams
    modify fun s => { s with streams }
    let _ ← Sh.writeTo 2 (start ++ String.intercalate " " shown ++ "\n")
    modify fun s => { s with streams := now }

/-- Runs a command of the shell, and then writes what it printed. A mistake only ends the script if the
command is a special one. -/
def asBuiltin (name : String) (isSpecial : Bool) (body : Sh Nat) : Sh Unit := do
  let outer := (← get).builtin
  modify fun s => { s with builtin := some name }
  try
    Sh.andFinally
      (do
        let status ← body
        if ← Sh.flush then Sh.setStatus status
        else
          Sh.complain (name ++ ": I/O error")
          Sh.setStatus (status ||| 1))
      (modify fun s => { s with builtin := outer })
  catch
    | .failed => if isSpecial then throw .failed
    | stop => throw stop

/-- Remembers the variables from now on, and puts them back in the end. -/
def withOwnVariables (body : Sh Unit) : Sh Unit := do
  modify fun s => { s with hidden := [] :: s.hidden }
  Sh.andFinally body Sh.restoreHidden

def setLine (line : Nat) : Sh Unit := modify fun s => { s with line }

/-- A process that starts as a copy of this one. Traps are not its own, but what is ignored stays. -/
def State.copied (s : State) : State :=
  { s with
    isFirst := false, traps := s.traps.filter (·.2 = ""), signals := [], loops := 0, unwritten := ""
    saved := none }

/-- The file that a command of the shell reads commands from. -/
def scriptFile (s : State) (name : String) : Except String String :=
  if Program.isPath name then .ok name
  else
    let list := (s.value? Host.searchVariable).getD ""
    match (Program.paths list name).find? fun path =>
      Redirection.isRegular s.world.files s.here (Octets.toText path) with
    | some path => .ok path
    | none => .error (name ++ ": not found")

/-- The text of a script; that of a directory is empty. -/
def scriptText (s : State) (path : String) : Except String String :=
  match s.world.files.read s.here (Octets.toText path) with
  | .ok content => .ok (Octets.ofBytes content)
  | .error .isDirectory => .ok ""
  | .error e => .error (Redirection.openingError true path e)

/-- What a process executes when it starts a program: in the end the shell with some arguments. A file
that is no program is taken for a script. -/
def shellArguments (s : State) (environment : Bindings) (name : String) (args : List String) :
    (last : Errno) → List String → Except Errno (List String)
  | last, [] => .error last
  | last, path :: paths =>
    let lengths := (name :: args).map (·.length) ++ environment.map fun e => e.1.length + 1 + e.2.length
    match s.world.files.start s.here lengths (Octets.toText path) [Octets.toText name] with
    | .ok started => .ok (started.map Octets.ofText ++ args)
    | .error .notExecutableFormat => .ok ("/bin/sh" :: path :: args)
    | .error e =>
      let isMissing := e == .noSuchFile || e == .notDirectory
      shellArguments s environment name args (if isMissing then last else e) paths

/-- How the shell was asked to run: a text, a file, or nothing at all. -/
inductive Source where
  | text (script : String)
  | file (path : String)
  | nothing
  deriving Repr, DecidableEq

/-- Reads the options of the shell itself: whether it is given a text, and its arguments. -/
def shellOptions : (fuel : Nat) → (isText : Bool) → List String → Sh (Bool × List String)
  | 0, isText, args => return (isText, args)
  | fuel + 1, isText, args => do
    match args with
    | "--" :: args | "-" :: args => return (isText, args)
    | a :: rest =>
      match a.toList with
      | '-' :: cs =>
        let rest ← Builtin.setLetters true (cs.filter fun c => c != 'c' && c != 'l') rest
        shellOptions fuel (isText || cs.contains 'c') rest
      | '+' :: cs =>
        let rest ← Builtin.setLetters false cs rest
        shellOptions fuel isText rest
      | _ => return (isText, args)
    | [] => return (isText, [])

/-- Takes the arguments of the shell: options, then what to run, then what that is given. -/
def shellSource (args : List String) : Sh Source := do
  let (isText, args) ← shellOptions args.length false args
  if isText then
    match args with
    | [] => Sh.fail "-c requires an argument"
    | script :: rest =>
      modify fun s => { s with name := rest.headD s.name, arguments := rest.drop 1 }
      return .text script
  else
    let s ← get
    match args with
    | path :: rest =>
      if s.flags.contains 's' then
        set { s with arguments := args }
        return .nothing
      set { s with name := path, arguments := rest }
      return .file path
    | [] => return .nothing

mutual

/-- Does what is to be done about the signals that came in. -/
def heed : (fuel : Nat) → Sh Unit
  | 0 => throw (.killed 9)
  | fuel + 1 => do
    let s ← get
    match s.signals.min? with
    | none => pure ()
    | some n =>
      set { s with signals := s.signals.filter (· != n) }
      match s.traps.lookup n with
      | none => pure ()
      | some action =>
        let status := s.saved.getD s.status
        modify fun s => { s with saved := some status }
        Sh.andFinally
          (do
            let _ ← runText fuel .plain false action
            Sh.setStatus status)
          (modify fun t => { t with saved := s.saved })
      heed fuel

/-- Runs the commands of a text, line by line, and gives the status of the last one. -/
def runText : (fuel : Nat) → Manner → (isFile : Bool) → String → Sh Nat
  | 0, _, _, _ => throw (.killed 9)
  | fuel + 1, m, isFile, text => do
    let line := (← get).readerLine
    Sh.andFinally (runLines fuel m isFile (Reader.start text) 0)
      (modify fun s => { s with readerLine := line })

def runLines : (fuel : Nat) → Manner → (isFile : Bool) → Reader → (status : Nat) → Sh Nat
  | 0, _, _, _, _ => throw (.killed 9)
  | fuel + 1, m, isFile, r, status => do
    let s ← get
    let r := { r with documents := s.documents, nextDocument := s.nextDocument, aliases := s.aliases }
    match (Parser.nextLine r.fuel).run r with
    | .error message after =>
      set { s with readerLine := after.line }
      Sh.refuse message
    | .ok c? after =>
      set { s with
        documents := after.documents, nextDocument := after.nextDocument, readerLine := after.line }
      if isFile && s.flags.contains 'v' then
        let _ ← Sh.writeTo 2 (String.ofList (r.rest.take (r.rest.length - after.rest.length)))
      match c? with
      | none => return status
      | some c =>
        let isEnd := match after.pushed with
          | some .endOfScript => true
          | _ => false
        run fuel ⟨m.isTested, m.isLast && isEnd⟩ c
        let status ← match c with
          | .nothing => pure status
          | _ => pure (← get).status
        runLines fuel m isFile after status

/-- Runs something to the end of its process. What is to be done in the end is done then. -/
def toEnd : (fuel : Nat) → Sh Unit → Sh Ending
  | 0, _ => return .signal 9
  | fuel + 1, body => do
    try
      try
        body
      catch
        | .killed n => throw (.killed n)
        | _ => pure ()
      let s ← get
      match s.traps.lookup 0 with
      | none => pure ()
      | some action =>
        set { s with traps := s.traps.filter (·.1 != 0), saved := some s.status }
        try
          let _ ← runText fuel .plain false action
          Sh.setStatus s.status
        catch
          | .killed n => throw (.killed n)
          | .ended | .failed => pure ()
          | _ => Sh.setStatus s.status
      let _ ← Sh.flush
      return .status (← get).status
    catch
      | .killed n => return .signal n
      | _ => return .status (← get).status

/-- Runs something in a process of its own. -/
def forked : (fuel : Nat) → Sh Unit → Sh Ending
  | 0, _ => throw (.killed 9)
  | fuel + 1, body => do
    let s ← get
    let (ending, world) := match (toEnd fuel body).run s.copied with
      | .ok ending t => (ending, t.world)
      | .error _ t => (.signal 9, t.world)
    set { s with world }
    Signal.collect
    return ending

/-- The output of a command, without the newlines at its end. -/
def substitute : (fuel : Nat) → Command → Sh String
  | 0, _ => throw (.killed 9)
  | fuel + 1, c => do
    let id ← Redirection.addFile ⟨.pipe [], 0, false, true, false⟩
    let ending ← forked fuel do
      Redirection.aim 1 (some id)
      run fuel ⟨false, true⟩ c
    Signal.report ending
    modify fun s => { s with inner := ending.code }
    let bytes := ((← get).world.gathered id).filter (· != 0)
    return Octets.ofBytes (bytes.reverse.dropWhile (· = 10)).reverse

/-- Runs commands in processes of their own, each of which reads what the one before it wrote. -/
def runStages : (fuel : Nat) → Manner → (input : Option Nat) → List Command → Sh Ending
  | 0, _, _, _ => throw (.killed 9)
  | _, _, _, [] => return .status 0
  | fuel + 1, m, input, c :: cs => do
    let output ← if cs.isEmpty then pure none
      else do pure (some (← Redirection.addFile ⟨.pipe [], 0, false, true, false⟩))
    let ending ← forked fuel do
      if input.isSome then Redirection.aim 0 input
      if output.isSome then Redirection.aim 1 output
      run fuel ⟨m.isTested, true⟩ c
    Signal.report ending
    match output with
    | none => return ending
    | some id =>
      let bytes := (← get).world.gathered id
      let next ← Redirection.addFile ⟨.text bytes, 0, true, false, false⟩
      runStages fuel m (some next) cs

/-- Puts redirections in force while something runs, if they can be opened. -/
def redirected : (fuel : Nat) → List Redirect → (failed body : Sh Unit) → (stays : Bool) → Sh Unit
  | 0, _, _, _, _ => throw (.killed 9)
  | fuel + 1, rs, failed, body, stays => do
    let aims ← Redirection.aims (substitute fuel) fuel rs
    let streams := (← get).streams
    Sh.andFinally
      (do
        let isOpen ←
          try
            Redirection.followAll (substitute fuel) fuel aims
            pure true
          catch
            | .failed => pure false
            | stop => throw stop
        if isOpen then body else failed)
      (if stays then pure ()
        else aims.forM fun (stream, _) => Redirection.aim stream (streams.lookup stream))

def run : (fuel : Nat) → Manner → Command → Sh Unit
  | 0, _, _ => throw (.killed 9)
  | fuel + 1, m, c => do
    if ← Sh.hasFlag 'n' then return
    heed fuel
    let mayEnd ← match c with
      | .nothing => pure false
      | .simple line assignments words rs =>
        setLine line
        runSimple fuel m assignments words rs
        pure true
      | .pipe stages =>
        let ending ← runStages fuel m none stages
        Sh.setStatus ending.code
        pure true
      | .negated body =>
        run fuel .tested body
        modify fun s => { s with status := if s.status = 0 then 1 else 0 }
        pure false
      | .both first second =>
        run fuel .tested first
        if (← get).status = 0 then run fuel m second
        pure false
      | .either first second =>
        run fuel .tested first
        if (← get).status != 0 then run fuel m second
        pure false
      | .sequence first second =>
        run fuel m.inner first
        run fuel m second
        pure false
      | .background body =>
        let s ← get
        let id := State.processNumber + 1 + s.finished.length
        let ending ← forked fuel do
          let nothing ← Redirection.addFile ⟨.nothing, 0, true, false, false⟩
          Redirection.aim 0 (some nothing)
          run fuel ⟨false, true⟩ body
        modify fun s =>
          { s with status := 0, lastBackground := some id, finished := (id, ending) :: s.finished }
        pure true
      | .redirected line body rs =>
        setLine line
        let failed : Sh Unit := do
          if !m.isTested && (← Sh.hasFlag 'e') then throw .ended
        redirected fuel rs failed (run fuel m.inner body) false
        pure false
      | .subshell line body rs =>
        setLine line
        let ending ← forked fuel
          (redirected fuel rs (throw .failed) (run fuel ⟨m.isTested, true⟩ body) true)
        Signal.report ending
        Sh.setStatus ending.code
        pure true
      | .choose condition yes no =>
        run fuel .tested condition
        if (← get).status = 0 then run fuel m yes
        else
          match no with
          | .nothing => Sh.setStatus 0
          | no => run fuel m no
        pure false
      | .loop isUntil condition body =>
        modify fun s => { s with loops := s.loops + 1 }
        let status ← Sh.andFinally (runLoop fuel m.inner isUntil condition body 0)
          (modify fun s => { s with loops := s.loops - 1 })
        Sh.setStatus status
        pure false
      | .each line name words body =>
        setLine line
        let values ← match words with
          | none => pure (← get).arguments
          | some ws => do pure (← ws.mapM (Expansion.fields (substitute fuel) fuel)).flatten
        modify fun s => { s with loops := s.loops + 1 }
        let status ← Sh.andFinally (runEach fuel m.inner name values body 0)
          (modify fun s => { s with loops := s.loops - 1 })
        Sh.setStatus status
        pure false
      | .case line subject arms =>
        setLine line
        let text ← Expansion.text (substitute fuel) fuel .text subject
        runArms fuel m text arms
        pure false
      | .define name body =>
        modify fun s =>
          { s with functions := (name, body) :: s.functions.filter (·.1 != name), status := 0 }
        pure false
    heed fuel
    if mayEnd && !m.isTested && (← get).status != 0 && (← Sh.hasFlag 'e') then throw .ended

def runLoop : (fuel : Nat) → Manner → (isUntil : Bool) → (condition body : Command) →
    (status : Nat) → Sh Nat
  | 0, _, _, _, _, _ => throw (.killed 9)
  | fuel + 1, m, isUntil, condition, body, status => do
    match ← round (run fuel .tested condition) with
    | .left => return status
    | .next => runLoop fuel m isUntil condition body status
    | .complete =>
      if ((← get).status = 0) = isUntil then return status
      let r ← round (run fuel m body)
      let status := (← get).status
      if r = .left then return status
      runLoop fuel m isUntil condition body status

def runEach : (fuel : Nat) → Manner → (name : String) → List String → Command → (status : Nat) →
    Sh Nat
  | 0, _, _, _, _, _ => throw (.killed 9)
  | _, _, _, [], _, status => return status
  | fuel + 1, m, name, v :: vs, body, _ => do
    Sh.assignVariable name v false
    let r ← round (run fuel m body)
    let status := (← get).status
    if r = .left then return status
    runEach fuel m name vs body status

def runArms : (fuel : Nat) → Manner → (subject : String) → List (List Word × Command) → Sh Unit
  | 0, _, _, _ => throw (.killed 9)
  | _, _, _, [] => Sh.setStatus 0
  | fuel + 1, m, subject, (patterns, body) :: arms => do
    let isMeant ← patterns.anyM fun p => do
      let ws ← Expansion.pattern (substitute fuel) fuel p
      return Wildcard.matchesAll ws subject.toList
    if isMeant then
      match body with
      | .nothing => Sh.setStatus 0
      | body => run fuel m body
    else runArms fuel m subject arms

/-- Expands the words of a command. Commands that bind variables take assignments uncut. -/
def gather : (fuel : Nat) → (fields : List String) → List Word → Sh (List String)
  | 0, _, _ => throw (.killed 9)
  | _, fields, [] => return fields
  | fuel + 1, fields, w :: ws => do
    let isBinding := (meantCommand? (fields.length + 1) fields).any Builtin.binds
    let more ← match if isBinding then assignment? w else none with
      | some (name, value) => do
        let text ← Expansion.text (substitute fuel) fuel .binding value
        pure [name ++ "=" ++ text]
      | none => Expansion.fields (substitute fuel) fuel w
    gather fuel (fields ++ more) ws

def runSimple : (fuel : Nat) → Manner → List (String × Word) → List Word → List Redirect → Sh Unit
  | 0, _, _, _, _ => throw (.killed 9)
  | fuel + 1, m, assignments, words, rs => do
    modify fun s => { s with inner := 0 }
    let fields ← gather fuel [] words
    let name := fields.headD ""
    let meant := (meantCommand? (fields.length + 1) fields).getD name
    let streams := (← get).streams
    let isSpecial := Builtin.isSpecial name
    let assign (exports isHidden : Bool) : Sh (List (String × String)) :=
      assignments.mapM fun (name, w) => do
        let value ← Expansion.text (substitute fuel) fuel .binding w
        if isHidden then Sh.hideVariable name
        Sh.assignVariable name value exports
        return (name, value)
    let failed : Sh Unit := if isSpecial then throw .failed else pure ()
    redirected fuel rs failed
      (if fields.isEmpty then do
        let bindings ← assign false false
        trace streams bindings []
        modify fun s => { s with status := s.inner }
      else if isSpecial then do
        let bindings ← assign false false
        trace streams bindings fields
        runNamed fuel m false true fields
      else
        withOwnVariables do
          let bindings ← assign true true
          trace streams bindings fields
          runNamed fuel m true false fields)
      (meant = "exec")

/-- Runs a command by its name: a function, a command of the shell or a program. -/
def runNamed : (fuel : Nat) → Manner → (mayBeFunction isSpecial : Bool) → List String → Sh Unit
  | 0, _, _, _, _ => throw (.killed 9)
  | _, _, _, _, [] => pure ()
  | fuel + 1, m, mayBeFunction, isSpecial, name :: args => do
    let s ← get
    match if mayBeFunction then s.functions.lookup name else none with
    | some body => runFunction fuel m body args
    | none =>
      match name with
      | "command" => runCommand fuel m args
      | "eval" => asBuiltin name isSpecial do
        if args.isEmpty then return 0
        runText fuel m.inner false (String.intercalate " " args)
      | "." => asBuiltin name isSpecial (runFile fuel args)
      | "exec" => asBuiltin name isSpecial (replace fuel args)
      | _ =>
        match Builtin.find? name with
        | some body => asBuiltin name isSpecial (body args)
        | none => runProgram fuel m name args

/-- Runs a command that is no function, or says what it is. -/
def runCommand : (fuel : Nat) → Manner → List String → Sh Unit
  | 0, _, _ => throw (.killed 9)
  | fuel + 1, m, args => do
    match args.dropWhile (· = "-p") with
    | [] => Sh.setStatus 0
    | "--" :: args => runNamed fuel m false false args
    | a :: rest =>
      if a.startsWith "-" && a != "-" then
        asBuiltin "command" false do
          let (inWords?, names) ← Builtin.commandOptions args
          match inWords?, names with
          | some inWords, name :: _ => Builtin.describe inWords name
          | _, _ => return 0
      else runNamed fuel m false false (a :: rest)

/-- Runs the commands of a file. -/
def runFile : (fuel : Nat) → List String → Sh Nat
  | 0, _ => throw (.killed 9)
  | fuel + 1, args => do
    let (_, args) ← Builtin.options "" "" args
    match args with
    | [] => return 0
    | name :: _ =>
      let s ← get
      match scriptFile s name with
      | .error message => Sh.fail message
      | .ok path =>
        match scriptText s path with
        | .error message => Sh.fail message
        | .ok text =>
          set { s with builtin := some path }
          let status ←
            try
              runText fuel .plain true text
            catch
              | .returns => pure (← get).status
              | stop => throw stop
          modify fun t => { t with builtin := s.builtin }
          return status

/-- Goes on as another program, which leaves nothing to be done in the end. -/
def replace : (fuel : Nat) → List String → Sh Nat
  | 0, _ => throw (.killed 9)
  | fuel + 1, args => do
    let (_, args) ← Builtin.options "" "" args
    match args with
    | [] => return 0
    | name :: args =>
      let s ← get
      let paths := if Program.isPath name then [name]
        else Program.paths ((s.value? Host.searchVariable).getD "") name
      match shellArguments s (← Sh.environment) name args .noSuchFile paths with
      | .error e =>
        Sh.complain (Program.refusal name e)
        let isMissing := [Errno.noSuchFile, .notDirectory, .nameTooLong, .tooManyLinks].contains e
        Sh.setStatus (if isMissing then 127 else 126)
      | .ok shellArgs =>
        let ending ← launched fuel shellArgs
        modify fun s => { s with traps := [] }
        match ending with
        | .signal n => throw (.killed n)
        | .status n => Sh.setStatus n
      throw .ended

def runFunction : (fuel : Nat) → Manner → Command → List String → Sh Unit
  | 0, _, _, _ => throw (.killed 9)
  | fuel + 1, m, body, args => do
    let s ← get
    if depthLimit ≤ s.depth then
      Sh.fail ("Maximum function recursion depth (" ++ toString depthLimit ++ ") reached")
    set { s with
      arguments := args, loops := 0, depth := s.depth + 1, optionIndex := 1, optionOffset := none }
    Sh.andFinally
      (do
        try
          run fuel m.inner body
        catch
          | .returns => pure ()
          | stop => throw stop)
      (modify fun t =>
        { t with
          arguments := s.arguments, loops := s.loops, depth := s.depth
          optionIndex := s.optionIndex, optionOffset := s.optionOffset })

/-- Runs a program in a process of its own, or in this one if nothing comes after it. -/
def runProgram : (fuel : Nat) → Manner → (name : String) → List String → Sh Unit
  | 0, _, _, _ => throw (.killed 9)
  | fuel + 1, m, name, args => do
    let s ← get
    match Program.search s name with
    | .missing =>
      Sh.complain (name ++ ": not found")
      Sh.setStatus 127
    | .refused e =>
      Sh.complain (Program.refusal name e)
      Sh.setStatus 127
    | .found paths =>
      match shellArguments s (← Sh.environment) name args .noSuchFile paths with
      | .error e =>
        Sh.complain (Program.refusal name e)
        let isMissing := [Errno.noSuchFile, .notDirectory, .nameTooLong, .tooManyLinks].contains e
        Sh.setStatus (if isMissing then 127 else 126)
      | .ok shellArgs =>
        let ending ← launched fuel shellArgs
        match ending with
        | .signal n => if m.isLast && s.traps.all (·.2 = "") then throw (.killed n)
        | .status _ => pure ()
        Signal.report ending
        Sh.setStatus ending.code

/-- Runs the shell on its arguments, the first of which is its own name. Open files are handed on. -/
def launched : (fuel : Nat) → List String → Sh Ending
  | 0, _ => throw (.killed 9)
  | fuel + 1, shellArgs => do
    let s ← get
    let environment ← Sh.environment
    let ignored := s.traps.filter fun x => x.1 != 0 && x.2 = ""
    let child := State.start { s.world with sent := [] } s.here s.accounts environment s.streams ignored
    let (ending, world) := match (runShell fuel shellArgs).run child with
      | .ok ending t => (ending, t.world)
      | .error _ t => (.signal 9, t.world)
    set { s with world := { world with sent := s.world.sent } }
    return ending

def runShell : (fuel : Nat) → List String → Sh Ending
  | 0, _ => return .signal 9
  | fuel + 1, shellArgs => do
    modify fun s => { s with name := shellArgs.headD "sh" }
    toEnd fuel do
      match ← shellSource (shellArgs.drop 1) with
      | .nothing => pure ()
      | .text script =>
        let _ ← runText fuel ⟨false, true⟩ false script
      | .file path =>
        let name := shellArgs.headD "sh"
        match scriptText (← get) path with
        | .error message =>
          modify fun s => { s with name }
          Sh.fail message
        | .ok text =>
          let _ ← runText fuel .plain true text

end

/-- The bytes that went to one stream, in order. -/
def bytesOn (stream : Stream) (printed : List (Stream × Bytes)) : Bytes :=
  printed.reverse.flatMap fun p => if p.1 = stream then p.2 else []

/-- A finished script: the files it leaves, what it printed and how it ended. -/
structure Finished where
  files : Files
  printed : List (Stream × Bytes)
  ending : Ending

/-- How many nested steps a script may take. -/
def stepLimit : Nat := 1000000

/-- Runs the shell on its arguments, with nothing to read and two outputs. -/
def start (fuel : Nat) (files : Files) (here : Location) (accounts environment : Bindings)
    (shellArgs : List String) : Finished :=
  let octets (b : Bindings) : Bindings := b.map fun (name, text) => (Octets.ofText name, Octets.ofText text)
  let outlet (s : Stream) : OpenFile := ⟨.stream s, 0, false, true, false⟩
  let world : World :=
    { files, printed := [], sent := []
      opened := #[⟨.nothing, 0, true, false, false⟩, outlet .output, outlet .diagnostics] }
  let s := State.start world here (octets accounts) (octets environment) [(0, 0), (1, 1), (2, 2)] []
  match (runShell fuel (shellArgs.map Octets.ofText)).run s with
  | .ok ending t => ⟨t.world.files, t.world.printed, ending⟩
  | .error _ t => ⟨t.world.files, t.world.printed, .signal 9⟩

end BitcodeWrapper.Shell
