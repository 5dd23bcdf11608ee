import BitcodeWrapper.Shell.Builtin.Basic
import BitcodeWrapper.Shell.Field

/-!
Commands that change what a script knows: variables, arguments, options and aliases.
-/
namespace BitcodeWrapper.Shell.Builtin

/-- Says which variables satisfy a condition, in order of their names. -/
def listing (before : String) (p : Variable → Bool) : Sh Nat := do
  let s ← get
  let shown := (s.bound.filter fun x => p x.2).mergeSort fun x y => x.1 ≤ y.1
  for (name, v) in shown do
    let text := match v.value with
      | some value => name ++ "=" ++ quoted value
      | none => name
    Sh.print (before ++ text ++ "\n")
  return 0

def demandName (name : String) : Sh Unit := do
  if !isName name then Sh.fail (name ++ ": bad variable name")

/-- Gives variables a mark, and values if they come with the names. -/
def mark (command : String) (marked : Variable → Variable) (p : Variable → Bool) (args : List String) :
    Sh Nat := do
  let (os, args) ← options "p" "" args
  if !os.isEmpty || args.isEmpty then listing (command ++ " ") p
  else
    for a in args do
      let (name, value) := binding a
      demandName name
      match value with
      | some value => Sh.assignVariable name value false
      | none => pure ()
      Sh.putVariable name (marked ((← Sh.named? name).getD ⟨none, false, false⟩))
    return 0

def exportMark (args : List String) : Sh Nat :=
  mark "export" (fun v => { v with isExported := true }) (·.isExported) args

def readOnlyMark (args : List String) : Sh Nat :=
  mark "readonly" (fun v => { v with isReadOnly := true }) (·.isReadOnly) args

def unset (args : List String) : Sh Nat := do
  let (os, args) ← options "fv" "" args
  let isFunction := os.getLast?.any fun o => o.1 = 'f'
  for a in args do
    if isFunction then modify fun s => { s with functions := s.functions.filter fun f => f.1 != a }
    else
      let (name, _) := binding a
      demandName name
      if (← Sh.named? name).any (·.isReadOnly) then Sh.fail (name ++ ": is read only")
      Sh.eraseVariable name
  return 0

/-- Makes variables belong to the function that runs. They keep the values that they have. -/
def localVariables (args : List String) : Sh Nat := do
  if (← get).hidden.isEmpty then Sh.fail "not in a function"
  for a in args do
    let (name, value) := binding a
    demandName name
    Sh.hideVariable name
    match value with
    | some value => Sh.assignVariable name value false
    | none => pure ()
  return 0

/-- The options of a script, some of which have letters. -/
def settings : List (String × Option Char) :=
  [("errexit", some 'e'), ("noglob", some 'f'), ("ignoreeof", some 'I'), ("interactive", some 'i'),
    ("monitor", some 'm'), ("noexec", some 'n'), ("stdin", some 's'), ("xtrace", some 'x'),
    ("verbose", some 'v'), ("vi", some 'V'), ("emacs", some 'E'), ("noclobber", some 'C'),
    ("allexport", some 'a'), ("notify", some 'b'), ("nounset", some 'u'), ("privileged", some 'p'),
    ("nolog", none), ("debug", none)]

def setFlag (c : Char) (isOn : Bool) : Sh Unit :=
  modify fun s =>
    let others := s.flags.filter (· != c)
    { s with flags := if isOn then c :: others else others }

/-- Sets the option that a letter stands for. -/
def setLetter (c : Char) (isOn : Bool) : Sh Unit := do
  if State.flagLetters.contains c then setFlag c isOn
  else Sh.fail ("Illegal option -" ++ String.singleton c)

/-- Sets an option by its name. -/
def setNamed (name : String) (isOn : Bool) : Sh Unit := do
  match settings.lookup name with
  | some (some c) => setFlag c isOn
  | some none => pure ()
  | none => Sh.fail ("Illegal option -o " ++ name)

def showSettings (isTable : Bool) : Sh Unit := do
  let flags := (← get).flags
  if isTable then Sh.print "Current option settings\n"
  for (name, letter) in settings do
    let isOn := letter.any flags.contains
    Sh.print <|
      if isTable then
        name ++ String.ofList (List.replicate (16 - name.length) ' ') ++ (if isOn then "on" else "off") ++ "\n"
      else "set " ++ (if isOn then "-o " else "+o ") ++ name ++ "\n"

/-- Sets options letter by letter. The letter `o` takes a name from the arguments. -/
def setLetters (isOn : Bool) : List Char → List String → Sh (List String)
  | [], args => return args
  | 'o' :: cs, args => do
    match args with
    | name :: args =>
      setNamed name isOn
      setLetters isOn cs args
    | [] =>
      showSettings isOn
      setLetters isOn cs []
  | c :: cs, args => do
    setLetter c isOn
    setLetters isOn cs args

/-- Sets options, and the arguments if there are others or two dashes. -/
def setFrom : (fuel : Nat) → List String → Sh Unit
  | 0, _ => pure ()
  | fuel + 1, args => do
    let arguments (args : List String) : Sh Unit :=
      modify fun s => { s with arguments := args, optionIndex := 1, optionOffset := none }
    match args with
    | [] => pure ()
    | "--" :: args => arguments args
    | "-" :: args =>
      setFlag 'x' false
      setFlag 'v' false
      if !args.isEmpty then arguments args
    | a :: rest =>
      match a.toList with
      | '-' :: cs => setFrom fuel (← setLetters true cs rest)
      | '+' :: cs => setFrom fuel (← setLetters false cs rest)
      | _ => arguments (a :: rest)

def setOptions (args : List String) : Sh Nat := do
  if args.isEmpty then listing "" (·.value.isSome)
  else
    setFrom (args.length + 1) args
    return 0

def shift (args : List String) : Sh Nat := do
  let n ← match args with
    | [] => pure 1
    | a :: _ => number a
  let s ← get
  if s.arguments.length < n then Sh.fail "can't shift that many"
  set { s with arguments := s.arguments.drop n, optionIndex := 1, optionOffset := none }
  return 0

/-- A line of what can be read, with backslashes worked out, and whether it was whole. -/
def lineFrom (isRaw : Bool) : (taken : Nat) → Line → List UInt8 → Line × Nat × Bool
  | taken, read, [] => (read.reverse, taken, false)
  | taken, read, b :: bytes =>
    if b = 10 then (read.reverse, taken + 1, true)
    else if b = 0 then lineFrom isRaw (taken + 1) read bytes
    else if b = 92 && !isRaw then
      match bytes with
      | [] => (read.reverse, taken + 1, false)
      | d :: bytes =>
        let read := if d = 10 then read else (Char.ofNat d.toNat, true) :: read
        lineFrom isRaw (taken + 2) read bytes
    else lineFrom isRaw (taken + 1) ((Char.ofNat b.toNat, false) :: read) bytes

def read (args : List String) : Sh Nat := do
  let (os, names) ← options "r" "p" args
  if names.isEmpty then Sh.fail "arg count"
  let s ← get
  let id? := s.streams.lookup 0
  let unread := (id?.map s.world.unread).getD []
  let (line, taken, isWhole) := lineFrom (os.any fun o => o.1 = 'r') 0 [] unread
  match id? with
  | some id => set { s with world := s.world.skip id taken }
  | none => pure ()
  let fields := Line.fields s.separators names.length line
  for (a, value) in names.zip fields do
    let (name, _) := binding a
    demandName name
    Sh.assignVariable name value false
  return if isWhole then 0 else 1

/-- What the next option is, its value if it has one, and what is said about it. -/
structure NextOption where
  letter : String
  value : Option String
  remark : Option String
  index : Nat
  offset : Option Nat

/-- Looks at the next option in some arguments. -/
def nextOption? (letters : List Char) (args : List String) (index : Nat) (offset : Option Nat) :
    Except Nat NextOption :=
  let isQuiet := letters.head? = some ':'
  let current := if index < 2 then none else args[index - 2]?
  let left : List Char := match offset, current with
    | some n, some a => a.toList.drop n
    | _, _ => []
  let (left, index, word) : List Char × Nat × List Char :=
    if left.isEmpty then
      match (args[index - 1]?).map String.toList with
      | some ('-' :: c :: cs) => (c :: cs, index + 1, '-' :: c :: cs)
      | _ => ([], index, [])
    else (left, index, (current.getD "").toList)
  match left with
  | [] => .error index
  | c :: rest =>
    if c = '-' && word = ['-', '-'] then .error index
    else
      let offset := if rest.isEmpty then none else some (word.length - rest.length)
      let letter := String.singleton c
      match letters.dropWhile (· != c) with
      | _ :: ':' :: _ =>
        if !rest.isEmpty then .ok ⟨letter, some (String.ofList rest), none, index, none⟩
        else
          match args[index - 1]? with
          | some value => .ok ⟨letter, some value, none, index + 1, none⟩
          | none =>
            if isQuiet then .ok ⟨":", some letter, none, index, none⟩
            else .ok ⟨"?", none, some ("No arg for -" ++ letter ++ " option\n"), index, none⟩
      | _ :: _ => .ok ⟨letter, some "", none, index, offset⟩
      | [] =>
        if isQuiet then .ok ⟨"?", some letter, none, index, offset⟩
        else .ok ⟨"?", none, some ("Illegal option -" ++ letter ++ "\n"), index, offset⟩

def getOptions (args : List String) : Sh Nat := do
  match args with
  | letters :: name :: rest =>
    let s ← get
    let rest := if rest.isEmpty then s.arguments else rest
    let finish (letter : String) (index : Nat) (offset : Option Nat) : Sh Unit := do
      Sh.assignVariable "OPTIND" (toString index) false
      Sh.assignVariable name letter false
      modify fun s => { s with optionIndex := index, optionOffset := offset }
    match nextOption? letters.toList rest s.optionIndex s.optionOffset with
    | .error index =>
      finish "?" index none
      return 1
    | .ok o =>
      match o.remark with
      | some text =>
        let _ ← Sh.writeTo 2 text
      | none => pure ()
      match o.value with
      | some value => Sh.assignVariable "OPTARG" value false
      | none => Sh.eraseVariable "OPTARG"
      finish o.letter o.index o.offset
      return 0
  | _ => Sh.fail "Usage: getopts optstring var [arg...]"

def aliasText (name value : String) : String := name ++ "=" ++ quoted value ++ "\n"

def setAliases (args : List String) : Sh Nat := do
  if args.isEmpty then
    for (name, value) in (← get).aliases.reverse do Sh.print (aliasText name value)
    return 0
  args.foldlM (fun status a => do
    let (name, value) := binding a
    match value with
    | some value =>
      modify fun s => { s with aliases := (name, value) :: s.aliases.filter fun x => x.1 != name }
      return status
    | none =>
      match (← get).aliases.lookup a with
      | some value =>
        Sh.print (aliasText a value)
        return status
      | none =>
        let _ ← Sh.writeTo 2 ("alias: " ++ a ++ " not found\n")
        return 1) 0

def removeAliases (args : List String) : Sh Nat := do
  let (os, args) ← options "a" "" args
  if !os.isEmpty then
    modify fun s => { s with aliases := [] }
    return 0
  args.foldlM (fun status a => do
    let s ← get
    if (s.aliases.lookup a).isSome then
      set { s with aliases := s.aliases.filter fun x => x.1 != a }
      return status
    else
      let _ ← Sh.writeTo 2 ("unalias: " ++ a ++ " not found\n")
      return 1) 0

end BitcodeWrapper.Shell.Builtin
