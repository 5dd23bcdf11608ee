import BitcodeWrapper.Shell.Token

/-!
Commands read from the text of a script, one line at a time: a line runs before the next one is read.
-/
namespace BitcodeWrapper.Shell

/-- Where the parts of a word stand. -/
inductive Quoting where
  | word
  | double
  /-- In the braces of a parameter. -/
  | braces
  /-- In the braces of a parameter in double quotes. Between quotes of their own, braces are text. -/
  | doubleBraces (isInner : Bool)
  | arithmetic (depth : Nat)
  | document
  deriving Repr, DecidableEq

namespace Quoting

def isQuoted : Quoting → Bool
  | word | braces => false
  | _ => true

/-- The characters that a backslash takes the meaning of. -/
def escapable (q : Quoting) (c : Char) : Bool :=
  match q with
  | word | braces => true
  | double | arithmetic _ => ['$', '\x60', '"', '\\'].contains c
  | doubleBraces _ => ['$', '\x60', '"', '\\', '\x7d'].contains c
  | document => ['$', '\x60', '\\'].contains c

def unfinished : Quoting → Option String
  | word | document => none
  | braces => some "Missing '\x7d'"
  | arithmetic _ => some "Missing '))'"
  | double | doubleBraces _ => some "Unterminated quoted string"

end Quoting

/-- What kind of list of commands is read: one line, or a block, which may have to be non-empty. -/
inductive ListKind where
  | line
  | block
  | optional
  deriving Repr, DecidableEq

def joined : Option Command → Command → Command
  | none, c => c
  | some b, c => .sequence b c

def withRedirects (line : Nat) (c : Command) (rs : List Redirect) : Command :=
  if rs.isEmpty then c
  else
    match c with
    | .subshell line body _ => .subshell line body rs
    | c => .redirected line c rs

def simpleKind? : String → Option RedirectKind
  | "<" => some .read
  | "<>" => some .readWrite
  | ">" => some .write
  | ">|" => some .overwrite
  | ">>" => some .append
  | ">&" | "<&" => some .copy
  | _ => none

/-- The text of a word in which nothing is expanded. -/
def literalText (w : Word) : List Char :=
  w.flatMap fun p => match p with
    | .literal s _ => s.toList
    | _ => []

def hasQuotes (w : Word) : Bool :=
  w.any fun p => match p with
    | .literal _ isQuoted => isQuoted
    | _ => false

/-- Builtins that a function cannot be named like, and whose failures end a script. -/
def specialBuiltins : List String :=
  [".", ":", "break", "continue", "eval", "exec", "exit", "export", "local", "readonly", "return", "set",
    "shift", "times", "trap", "unset"]

namespace Parser

open Read

def lineOf : Read Nat := return (← get).line

mutual

/-- Reads the parts of a word up to its end, or up to what closes a quotation or braces. The parts read
so far are kept with the last one first. -/
def parts : (fuel : Nat) → Quoting → (isMark : Bool) → (read : List Part) → Read (List Part)
  | 0, _, _, _ => throw "too deep"
  | fuel + 1, q, isMark, read => do
    match ← peekPart with
    | none =>
      let isDocument := (← get).mark.isSome && !(q matches .arithmetic _)
      match if isDocument && q != .document then some "Missing '\x7d'" else q.unfinished with
      | some message => throw message
      | none => return read.reverse
    | some c =>
      if q = .word && endsWord c then return read.reverse
      advance
      if c = '\n' then passMark
      if q = .double && c = '"' then return read.reverse
      if (q = .braces || q = .doubleBraces false) && c = '\x7d' then return read.reverse
      if c = '\\' then
        match ← peekRaw with
        | none => parts fuel q isMark (pushLiteral '\\' true read)
        | some d =>
          advance
          let read := if q.escapable d then read else pushLiteral '\\' true read
          parts fuel q isMark (pushLiteral d true read)
      else if c = '$' && !isMark then
        let part ← dollar fuel q
        parts fuel q isMark (part :: read)
      else if c = '\x60' && !isMark then
        let part ← backquotes fuel q
        parts fuel q isMark (part :: read)
      else
        match q, c with
        | .word, '\x27' | .braces, '\x27' =>
          let inner ← takeRaw (· != '\x27')
          if (← peekRaw).isNone then throw "Unterminated quoted string"
          advance
          parts fuel q isMark (.literal (String.ofList inner) true :: read)
        | .word, '"' | .braces, '"' =>
          let inner ← parts fuel .double isMark []
          let inner := if inner.isEmpty then [Part.literal "" true] else inner
          parts fuel q isMark (inner.reverse ++ read)
        | .doubleBraces isInner, '"' => parts fuel (.doubleBraces !isInner) isMark read
        | .arithmetic depth, '(' =>
          parts fuel (.arithmetic (depth + 1)) isMark (pushLiteral c true read)
        | .arithmetic (depth + 1), ')' =>
          parts fuel (.arithmetic depth) isMark (pushLiteral c true read)
        | .arithmetic 0, ')' =>
          if ← accept ')' then return read.reverse
          parts fuel q isMark (pushLiteral c true read)
        | _, _ => parts fuel q isMark (pushLiteral c q.isQuoted read)

/-- Reads what follows a dollar sign. -/
def dollar : (fuel : Nat) → Quoting → Read Part
  | 0, _ => throw "too deep"
  | fuel + 1, q => do
    match ← peek with
    | some '(' =>
      advance
      if ← accept '(' then return .arithmetic (← parts fuel (.arithmetic 0) false []) q.isQuoted
      let outside ← get
      set { outside with awaited := [], mark := none }
      let body ← list fuel .optional false none
      let t ← token fuel .plain
      if !t.isText ")" then unexpected t (some (.operator ")"))
      modify fun r => { r with awaited := outside.awaited, mark := outside.mark }
      return .command (body.getD .nothing) q.isQuoted
    | some '\x7b' =>
      advance
      inBraces fuel q
    | some c =>
      if isNameStart c then
        return .parameter (String.ofList (← takeAll isNameChar)) .plain [] q.isQuoted
      else if isSpecialParameter c then
        advance
        return .parameter (String.singleton c) .plain [] q.isQuoted
      else return .literal "$" q.isQuoted
    | none => return .literal "$" q.isQuoted

/-- Reads a parameter in braces, of which the first one has been read. -/
def inBraces : (fuel : Nat) → Quoting → Read Part
  | 0, _ => throw "too deep"
  | fuel + 1, q => do
    let word (isPattern : Bool) : Read (List Part) :=
      parts fuel (if q.isQuoted && !isPattern then .doubleBraces false else .braces) false []
    let bad : Read Part := do
      let _ ← word false
      return .parameter "" .bad [] q.isQuoted
    /- A character that is no operation means nothing else either. -/
    let badOperation : Read Part := do
      modify fun r => { r with rest := r.rest.drop 1 }
      bad
    /- The operation after a name. -/
    let operated (name : String) : Read Part := do
      let colon ← accept ':'
      match ← peek with
      | some '\x7d' =>
        if colon then badOperation
        else
          advance
          return .parameter name .plain [] q.isQuoted
      | some '-' => advance; return .parameter name (.useDefault colon) (← word false) q.isQuoted
      | some '+' => advance; return .parameter name (.useAlternative colon) (← word false) q.isQuoted
      | some '?' => advance; return .parameter name (.demand colon) (← word false) q.isQuoted
      | some '=' => advance; return .parameter name (.assignDefault colon) (← word false) q.isQuoted
      | some '#' =>
        if colon then badOperation
        else
          advance
          let longest ← accept '#'
          return .parameter name (.cutFront longest) (← word true) q.isQuoted
      | some '%' =>
        if colon then badOperation
        else
          advance
          let longest ← accept '%'
          return .parameter name (.cutBack longest) (← word true) q.isQuoted
      | _ => badOperation
    let measured (name : String) : Read Part := do
      if ← accept '\x7d' then return .parameter name .length [] q.isQuoted
      bad
    match ← peek with
    | some c =>
      if isNameStart c then operated (String.ofList (← takeAll isNameChar))
      else if c.isDigit then operated (String.ofList (← takeAll Char.isDigit))
      else if c = '#' then
        advance
        match ← peek with
        | some d =>
          if isNameStart d then measured (String.ofList (← takeAll isNameChar))
          else if d.isDigit then measured (String.ofList (← takeAll Char.isDigit))
          else if d != '\x7d' && ((← get).rest.drop 1).head? = some '\x7d' then
            if isSpecialParameter d then
              advance
              measured (String.singleton d)
            else badOperation
          else operated "#"
        | none => operated "#"
      else if isSpecialParameter c then
        advance
        operated (String.singleton c)
      else if c = '\x7d' then bad
      else badOperation
    | none => bad

/-- Reads a command between backquotes, of which the first one has been read. It is a text of its own, in
which a backslash stands before backquotes, dollar signs and backslashes. -/
def backquotes : (fuel : Nat) → Quoting → Read Part
  | 0, _ => throw "too deep"
  | fuel + 1, q => do
    let text ← backquoted fuel q.isQuoted
    let outside ← get
    set { outside with rest := text, line := 1, pushed := none, awaited := [], mark := none }
    let body ← list fuel .optional false none
    modify fun r =>
      { r with
        rest := outside.rest, line := outside.line, pushed := outside.pushed, awaited := outside.awaited
        mark := outside.mark }
    return .command (body.getD .nothing) q.isQuoted

def backquoted : (fuel : Nat) → (isQuoted : Bool) → Read (List Char)
  | 0, _ => throw "too deep"
  | fuel + 1, isQuoted => do
    match ← peek with
    | none => throw "EOF in backquote substitution"
    | some c =>
      advance
      if c = '\x60' then return []
      if c = '\\' then
        match ← peekRaw with
        | none => return c :: (← backquoted fuel isQuoted)
        | some d =>
          advance
          let rest ← backquoted fuel isQuoted
          let isEscape := d = '\\' || d = '\x60' || d = '$' || (isQuoted && d = '"')
          return if isEscape then d :: rest else c :: d :: rest
      else return c :: (← backquoted fuel isQuoted)

def rawToken : (fuel : Nat) → (isMark : Bool) → Read Token
  | 0, _ => throw "too deep"
  | fuel + 1, isMark => do
    skipBlanks ((← get).rest.length + 1)
    match ← peek with
    | none => return .endOfScript
    | some '\n' =>
      advance
      return .newline
    | some _ =>
      match ← operator? with
      | some o => return .operator o
      | none =>
        let w ← parts fuel .word isMark []
        let next ← peek
        if next = some '<' || next = some '>' then
          let signs : Read Token := do
            let s ← redirectSigns
            return .redirection (if s.startsWith "<" then 0 else 1) s
          match w with
          | [] => signs
          | [.literal s false] =>
            match s.toList with
            | [d] =>
              if d.isDigit then return .redirection (d.toNat - 48) (← redirectSigns)
              else return .word w
            | _ => return .word w
          | _ => return .word w
        else return .word w

/-- Reads a token, or takes the one that was read too early. -/
def token : (fuel : Nat) → Mode → Read Token
  | 0, _ => throw "too deep"
  | fuel + 1, m => do
    let pushed := (← get).pushed
    modify fun r => { r with pushed := none }
    let t ←
      match pushed with
      | some t => pure t
      | none => rawToken fuel m.isMark
    let goesOn ← passAliases
    if m.skipsNewlines && t.isNewline then
      documents fuel
      token fuel m
    else
      match t with
      | .word w =>
        match plainWord? w with
        | some text =>
          if m.isCommandStart && reservedWords.contains text then return .reserved text
          let mayBeAlias := (m.replacesAliases || goesOn) && pushed.isNone
          let value ← if mayBeAlias then alias? text else pure none
          match value with
          | some value =>
            expandAlias text value
            token fuel m
          | none => return t
        | none => return t
      | t => return t

/-- Reads the texts that redirections wait for, at the start of a line. -/
def documents : (fuel : Nat) → Read Unit
  | 0 => throw "too deep"
  | fuel + 1 => do
    match (← get).awaited with
    | [] => pure ()
    | a :: awaited =>
      modify fun r => { r with awaited }
      let r ← get
      if a.isVerbatim then
        let (text, after) := verbatimText a (r.rest.length + 1) r.rest
        let line := r.line + (r.rest.take (r.rest.length - after.length)).count '\n'
        set { r with
          rest := after, line
          documents := (a.number, [.literal (String.ofList text) true]) :: r.documents }
      else
        set { r with pushed := none, mark := some a, isEnded := false }
        passMark
        let body ← parts fuel .document false []
        modify fun s =>
          { s with
            mark := none, isEnded := false, pushed := r.pushed
            documents := (a.number, body) :: s.documents }
      documents fuel

def target : (fuel : Nat) → (stream : Nat) → (signs : String) → Read Redirect
  | 0, _, _ => throw "too deep"
  | fuel + 1, stream, signs => do
    match simpleKind? signs with
    | some kind =>
      match ← token fuel .plain with
      | .word w => return .to stream kind w
      | t => unexpected t none
    | none =>
      match ← token fuel .mark with
      | .word w =>
        let number := (← get).nextDocument
        modify fun r =>
          { r with
            nextDocument := number + 1
            awaited := r.awaited ++ [⟨number, literalText w, signs == "<<-", hasQuotes w⟩] }
        return .to stream (.document number) []
      | t => unexpected t none

/-- Reads commands one after the other. -/
def list : (fuel : Nat) → ListKind → (isStarted : Bool) → Option Command → Read (Option Command)
  | 0, _, _, _ => throw "too deep"
  | fuel + 1, kind, isStarted, read => do
    let t ← token fuel (if kind = .line then .outer else .inner)
    match t with
    | .newline =>
      documents fuel
      return read
    | .endOfScript =>
      documents fuel
      push t
      return read
    | _ =>
      push t
      if t.endsList && (kind = .optional || (kind = .block && isStarted)) then return read
      let c ← andOr fuel .plain
      let t ← token fuel .plain
      let read := joined read (if t.isText "&" then .background c else c)
      match t with
      | .endOfScript =>
        documents fuel
        push t
        return some read
      | .newline =>
        push t
        list fuel kind true (some read)
      | t =>
        if t.isText "&" || t.isText ";" then list fuel kind true (some read)
        else
          if kind = .line then unexpected t none
          push t
          return some read

def andOr : (fuel : Nat) → Mode → Read Command
  | 0, _ => throw "too deep"
  | fuel + 1, m => do
    let c ← pipeline fuel m
    andOrFrom fuel c

def andOrFrom : (fuel : Nat) → Command → Read Command
  | 0, _ => throw "too deep"
  | fuel + 1, first => do
    let t ← token fuel .plain
    if t.isText "&&" then
      let second ← pipeline fuel .inner
      andOrFrom fuel (.both first second)
    else if t.isText "||" then
      let second ← pipeline fuel .inner
      andOrFrom fuel (.either first second)
    else
      push t
      return first

def pipeline : (fuel : Nat) → Mode → Read Command
  | 0, _ => throw "too deep"
  | fuel + 1, m => do
    let t ← token fuel m
    let isNegated := t.isText "!"
    if !isNegated then push t
    let first ← command fuel (if isNegated then .outer else .plain)
    let t ← token fuel .plain
    let c ←
      if t.isText "|" then do pure (Command.pipe (first :: (← stages fuel)))
      else do
        push t
        pure first
    return if isNegated then .negated c else c

def stages : (fuel : Nat) → Read (List Command)
  | 0 => throw "too deep"
  | fuel + 1 => do
    let c ← command fuel .inner
    let t ← token fuel .plain
    if t.isText "|" then return c :: (← stages fuel)
    push t
    return [c]

/-- Reads a list that must end with a reserved word. -/
def block : (fuel : Nat) → (ending : Token) → Read Command
  | 0, _ => throw "too deep"
  | fuel + 1, ending => do
    let c ← list fuel .block false none
    let t ← token fuel .plain
    if t.description != ending.description then unexpected t (some ending)
    return c.getD .nothing

def command : (fuel : Nat) → Mode → Read Command
  | 0, _ => throw "too deep"
  | fuel + 1, m => do
    let line ← lineOf
    match ← token fuel m with
    | .reserved "if" =>
      let c ← branches fuel
      redirected fuel line c
    | .reserved "while" => do
      let condition ← block fuel (.reserved "do")
      let body ← block fuel (.reserved "done")
      redirected fuel line (.loop false condition body)
    | .reserved "until" =>
      let condition ← block fuel (.reserved "do")
      let body ← block fuel (.reserved "done")
      redirected fuel line (.loop true condition body)
    | .reserved "for" =>
      let c ← eachLoop fuel line
      redirected fuel line c
    | .reserved "case" =>
      let c ← cases fuel line
      redirected fuel line c
    | .reserved "\x7b" =>
      let body ← block fuel (.reserved "\x7d")
      redirected fuel line body
    | .operator "(" =>
      let body ← block fuel (.operator ")")
      redirected fuel line (.subshell line body [])
    | t =>
      match t with
      | .word _ | .redirection _ _ =>
        push t
        let line ← lineOf
        simple fuel line .argument [] [] []
      | t => unexpected t none

/-- Reads the redirections after a command that is not a simple one. -/
def redirected : (fuel : Nat) → (line : Nat) → Command → Read Command
  | 0, _, _ => throw "too deep"
  | fuel + 1, line, c => return withRedirects line c (← redirects fuel .outer)

def redirects : (fuel : Nat) → Mode → Read (List Redirect)
  | 0, _ => throw "too deep"
  | fuel + 1, m => do
    match ← token fuel m with
    | .redirection stream signs =>
      let r ← target fuel stream signs
      return r :: (← redirects fuel .plain)
    | t =>
      push t
      return []

def branches : (fuel : Nat) → Read Command
  | 0 => throw "too deep"
  | fuel + 1 => do
    let condition ← block fuel (.reserved "then")
    let yes ← list fuel .block false none
    let yes := yes.getD .nothing
    match ← token fuel .plain with
    | .reserved "elif" => return .choose condition yes (← branches fuel)
    | .reserved "else" => return .choose condition yes (← block fuel (.reserved "fi"))
    | .reserved "fi" => return .choose condition yes .nothing
    | t => unexpected t (some (.reserved "fi"))

def eachLoop : (fuel : Nat) → (line : Nat) → Read Command
  | 0, _ => throw "too deep"
  | fuel + 1, line => do
    let name : Option String ← match ← token fuel .plain with
      | .word w => pure (plainWord? w)
      | _ => pure none
    match name.filter isName with
    | none => throw "Bad for loop variable"
    | some name =>
      let t ← token fuel .inner
      let words ←
        if t.isText "in" then do
          let (words, t) ← loopWords fuel
          if !(t.isNewline || t.isText ";") then unexpected t none
          pure (some words)
        else do
          if !t.isText ";" then push t
          pure none
      let t ← token fuel .inner
      if !t.isText "do" then unexpected t (some (.reserved "do"))
      return .each line name words (← block fuel (.reserved "done"))

/-- Reads words, and the token after them. -/
def loopWords : (fuel : Nat) → Read (List Word × Token)
  | 0 => throw "too deep"
  | fuel + 1 => do
    match ← token fuel .plain with
    | .word w =>
      let (words, t) ← loopWords fuel
      return (w :: words, t)
    | t => return ([], t)

def cases : (fuel : Nat) → (line : Nat) → Read Command
  | 0, _ => throw "too deep"
  | fuel + 1, line => do
    match ← token fuel .plain with
    | .word subject =>
      let t ← token fuel .inner
      if !t.isText "in" then unexpected t (some (.reserved "in"))
      return .case line subject (← arms fuel)
    | t => unexpected t (some (.word []))

def arms : (fuel : Nat) → Read (List (List Word × Command))
  | 0 => throw "too deep"
  | fuel + 1 => do
    let t ← token fuel .pattern
    if t.isText "esac" then return []
    let t ← if t.isText "(" then token fuel .plain else pure t
    let patterns ← armPatterns fuel t
    let body ← list fuel .optional false none
    let arm := (patterns, body.getD .nothing)
    let t ← token fuel .pattern
    if t.isText "esac" then return [arm]
    if !t.isText ";;" then unexpected t (some (.operator ";;"))
    return arm :: (← arms fuel)

/-- Reads the patterns of an arm, up to the bracket that closes them. -/
def armPatterns : (fuel : Nat) → Token → Read (List Word)
  | 0, _ => throw "too deep"
  | fuel + 1, t => do
    let pattern : Word ← match t with
      | .word w => pure w
      | .reserved s => pure [.literal s false]
      | _ => pure []
    let t ← token fuel .plain
    if t.isText "|" then
      let t ← token fuel .plain
      return pattern :: (← armPatterns fuel t)
    if !t.isText ")" then unexpected t (some (.operator ")"))
    return [pattern]

/-- Reads a simple command: assignments, words and redirections. The first word alone, followed by
brackets, names a function. -/
def simple : (fuel : Nat) → (line : Nat) → Mode → List (String × Word) → List Word →
    List Redirect → Read Command
  | 0, _, _, _, _, _ => throw "too deep"
  | fuel + 1, line, m, assignments, words, rs => do
    let done : Command := .simple line assignments.reverse words.reverse rs.reverse
    match ← token fuel m with
    | .word w =>
      match if words.isEmpty then assignment? w else none with
      | some a => simple fuel line m (a :: assignments) words rs
      | none => simple fuel line .plain assignments (w :: words) rs
    | .redirection stream signs =>
      let r ← target fuel stream signs
      simple fuel line m assignments words (r :: rs)
    | t =>
      match words with
      | [w] =>
        if t.isText "(" && assignments.isEmpty && rs.isEmpty then
          let t ← token fuel .plain
          if !t.isText ")" then unexpected t (some (.operator ")"))
          match (plainWord? w).filter fun s => isName s && !specialBuiltins.contains s with
          | none => throw "Bad function name"
          | some name =>
            return .define name (← command fuel .inner)
        else
          push t
          return done
      | _ =>
        push t
        return done

end

/-- Reads the commands of the next line, if there is one. -/
def nextLine (fuel : Nat) : Read (Option Command) := do
  match ← token fuel .outer with
  | .endOfScript => return none
  | t =>
    Read.push t
    return some ((← list fuel .line false none).getD .nothing)

end Parser

/-- Enough steps to read what is left of a text. -/
def Reader.fuel (r : Reader) : Nat := 8 * r.rest.length + 64

end BitcodeWrapper.Shell
