import BitcodeWrapper.Failure
import BitcodeWrapper.Path.Expansion
import BitcodeWrapper.Text.Loose

/-!
The paths that loose text names. A lone surrogate stands in a path like any character. Accounts and variables
are asked for by the bytes of a name: those that are no text are not among them, and a name that has no bytes
cannot be asked for.
-/
namespace BitcodeWrapper.Path.Loose
open Text

abbrev Points := List Point

def slash : Point := .char Path.slash

/-- The directory or the text that a name stands for, if it stands for one. -/
def named (find : String → Option String) (name : Points) : Except Fault (Option Points) :=
  if !(LooseText.mk name).isEncodable then .error .invalidValue
  else .ok (((LooseText.mk name).received?.bind find).map fun s : String => (s : LooseText).points)

def homeOf (homes : Homes) (account : String) : Option String :=
  if account = "" then homes.own else homes.accounts.get? account

/-- What is left of a path in a home directory, which loses the slashes at its end. -/
def below (home rest : Points) : Points :=
  let expanded := (home.reverse.dropWhile (· == slash)).reverse ++ rest
  if expanded = [] then [slash] else expanded

/-- No account can be asked for by a name with a NUL in it. -/
def expandHome (homes : Homes) (ps : Points) : Except Fault Points :=
  match ps with
  | .char '~' :: rest =>
    let account := rest.takeWhile (· != slash)
    if account.contains (.char '\x00') then .error .invalidValue
    else (named (homeOf homes) account).map fun
      | none => ps
      | some home => below home (rest.dropWhile (· != slash))
  | _ => .ok ps

def isAsciiWord : Point → Bool
  | .char c => Text.isAsciiWord c
  | .lone _ => false

def expandVariables (env : Bindings) : Points → Except Fault Points
  | [] => .ok []
  | .char '$' :: .char '\x7b' :: rest => do
    if .char '\x7d' ∈ rest then
      let name := rest.takeWhile (· != .char '\x7d')
      let written := .char '$' :: .char '\x7b' :: name ++ [.char '\x7d']
      let value := (← named env.get? name).getD written
      return value ++ (← expandVariables env ((rest.dropWhile (· != .char '\x7d')).drop 1))
    else return .char '$' :: .char '\x7b' :: (← expandVariables env rest)
  | .char '$' :: rest => do
    let name := rest.takeWhile isAsciiWord
    if name = [] then return .char '$' :: (← expandVariables env rest)
    let value := (← named env.get? name).getD (.char '$' :: name)
    return value ++ (← expandVariables env (rest.dropWhile isAsciiWord))
  | p :: rest => return p :: (← expandVariables env rest)
termination_by ps => ps.length
decreasing_by
  all_goals simp only [List.length_cons, List.length_drop]
  · have := (@List.dropWhile_suffix _ rest (· != .char '\x7d')).length_le
    omega
  · omega
  · omega
  · have := (@List.dropWhile_suffix _ rest isAsciiWord).length_le
    omega
  · omega

def normal (ps : Points) : Points :=
  let slashes := rootSlashes ((ps.takeWhile (· = slash)).map fun _ => Path.slash)
  let settled := normalSegments (.char '.') (0 < slashes) (cutAt slash ps)
  let all := List.replicate slashes slash ++ List.intercalate [slash] settled
  if all = [] then [.char '.'] else all

/-- The absolute path in normal form, of one that stands in a directory unless it is absolute. -/
def absolute (here : String) (ps : Points) : Points :=
  normal (if ps.head? = some slash then ps else (Path.join here "" : LooseText).points ++ ps)

def join (front : Points) (name : String) : Points :=
  let rest := (name : LooseText).points
  if front = [] || front.getLast? = some slash then front ++ rest else front ++ slash :: rest

def directory (ps : Points) : Points :=
  let head := (ps.reverse.dropWhile (· != slash)).reverse
  if head.all (· == slash) then head else (head.reverse.dropWhile (· == slash)).reverse

end BitcodeWrapper.Path.Loose
