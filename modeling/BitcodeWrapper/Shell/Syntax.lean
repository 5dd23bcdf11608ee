/-!
Scripts: words with their quoted and expanded parts, redirections and commands.
-/
namespace BitcodeWrapper.Shell

/-- What is done with the value of a parameter. `colon` makes an empty value count as unset. -/
inductive Operation where
  | plain
  | length
  | useDefault (colon : Bool)
  | assignDefault (colon : Bool)
  | useAlternative (colon : Bool)
  | demand (colon : Bool)
  | cutFront (longest : Bool)
  | cutBack (longest : Bool)
  /-- There is no such operation, which is noticed when it is to be done. -/
  | bad
  deriving Repr, DecidableEq

inductive RedirectKind where
  | read
  | readWrite
  | write
  /-- Writes also where files are protected. -/
  | overwrite
  | append
  | copy
  /-- Reads a text that stands in the script. -/
  | document (number : Nat)
  deriving Repr, DecidableEq

mutual

inductive Part where
  | literal (text : String) (isQuoted : Bool)
  | parameter (name : String) (operation : Operation) (word : List Part) (isQuoted : Bool)
  | arithmetic (expression : List Part) (isQuoted : Bool)
  | command (body : Command) (isQuoted : Bool)

inductive Redirect where
  | to (stream : Nat) (kind : RedirectKind) (target : List Part)

inductive Command where
  | nothing
  | simple (line : Nat) (assignments : List (String × List Part)) (words : List (List Part))
      (redirects : List Redirect)
  | pipe (stages : List Command)
  | negated (body : Command)
  | both (first second : Command)
  | either (first second : Command)
  | sequence (first second : Command)
  | background (body : Command)
  | redirected (line : Nat) (body : Command) (redirects : List Redirect)
  | subshell (line : Nat) (body : Command) (redirects : List Redirect)
  | choose (condition yes no : Command)
  | loop (isUntil : Bool) (condition body : Command)
  /-- Without words, over the arguments. -/
  | each (line : Nat) (name : String) (words : Option (List (List Part))) (body : Command)
  | case (line : Nat) (subject : List Part) (arms : List (List (List Part) × Command))
  | define (name : String) (body : Command)

end

abbrev Word := List Part

def Redirect.stream : Redirect → Nat
  | .to stream _ _ => stream

def Redirect.kind : Redirect → RedirectKind
  | .to _ kind _ => kind

def Redirect.target : Redirect → Word
  | .to _ _ target => target

/-- The text of a word without quotes or expansions. -/
def plainWord? : Word → Option String
  | [.literal s false] => some s
  | _ => none

end BitcodeWrapper.Shell
