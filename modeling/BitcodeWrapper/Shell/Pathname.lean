import BitcodeWrapper.Host.Files
import BitcodeWrapper.Shell.Field
import BitcodeWrapper.Shell.Octets

/-!
The paths that a pattern stands for. Wildcards stand for names in one directory, and for one that begins
with a dot only after a dot of their own.
-/
namespace BitcodeWrapper.Shell.Pathname

/-- The names in a directory, its own and that of its parent among them. -/
def names (files : Files) (here : Location) (directory : String) : List String :=
  match files.stat here (if directory = "" then "." else Octets.toText directory) with
  | .ok (loc, .directory) =>
    "." :: ".." :: (files.below loc).filterMap fun x =>
      match x.1 with
      | [name] => some (Octets.ofText name)
      | _ => none
  | _ => []

def covers (ws : List Wildcard) (name : String) : Bool :=
  let mayBeHidden := ws.head? == some (.char '.')
  (mayBeHidden || name.toList.head? != some '.') && Wildcard.matchesAll ws name.toList

def isThere (files : Files) (here : Location) (path : String) : Bool :=
  match files.find here false (Octets.toText path) with
  | .ok ⟨_, entry⟩ => entry.isSome
  | .error _ => false

/-- The paths that begin with a text and go on as patterns say, one for each name. -/
def under (files : Files) (here : Location) : (start : String) → List (List Wildcard) → List String
  | _, [] => []
  | start, ws :: rest =>
    let found := match Wildcard.plain? ws with
      | some name => [name]
      | none => (names files here start).filter (covers ws)
    match rest with
    | [] =>
      let paths := found.map (start ++ ·)
      if (Wildcard.plain? ws).isSome then paths.filter (isThere files here) else paths
    | _ => found.flatMap fun name => under files here (start ++ name ++ "/") rest

/-- Cuts a pattern at its slashes. -/
def components : Field → List Field
  | [] => [[]]
  | x :: rest =>
    match components rest with
    | [] => [[x]]
    | c :: cs => if x.1 = Path.slash then [] :: c :: cs else (x :: c) :: cs

/-- The paths that a field stands for, in order; itself if it is no pattern or none of them exists. -/
def expand (files : Files) (here : Location) (f : Field) : List String :=
  let patterns := (components f).map Wildcard.ofText
  if patterns.all fun ws => (Wildcard.plain? ws).isSome then [f.text]
  else
    match (under files here "" patterns).mergeSort fun a b => a ≤ b with
    | [] => [f.text]
    | paths => paths

end BitcodeWrapper.Shell.Pathname
