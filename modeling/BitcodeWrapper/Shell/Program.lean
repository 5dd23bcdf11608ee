import BitcodeWrapper.Shell.State

/-!
Programs that a script starts by name.
-/
namespace BitcodeWrapper.Shell.Program

/-- The outcome of a search. Only a file that may be executed is found by its name alone. -/
inductive Search where
  /-- The paths to try, the one that was found first. -/
  | found (paths : List String)
  | missing
  | refused (e : Errno)
  deriving Repr, DecidableEq

def searchFrom (files : Files) (here : Location) (refusal : Option Errno) : List String → Search
  | [] =>
    match refusal with
    | some e => .refused e
    | none => .missing
  | path :: paths =>
    match files.stat here (Octets.toText path) with
    | .ok (_, e) =>
      if Files.Entry.mayExecute e then .found (path :: paths)
      else searchFrom files here (some .permissionDenied) paths
    | .error .noSuchFile | .error .notDirectory => searchFrom files here refusal paths
    | .error e => searchFrom files here (some e) paths

/-- Where the programs of a name may be. -/
def paths (searchList name : String) : List String :=
  (Host.searchDirectories searchList).map fun d => if d = "" then name else d ++ "/" ++ name

def isPath (name : String) : Bool := name.toList.contains Path.slash

/-- Searches for a program. A name with a slash is taken as it is. -/
def search (s : State) (name : String) : Search :=
  if isPath name then .found [name]
  else
    let list := (s.value? Host.searchVariable).getD ""
    searchFrom s.world.files s.here none (paths list name)

def refusal (name : String) (e : Errno) : String :=
  name ++ ": " ++ (if e == .noSuchFile || e == .notDirectory then "not found" else e.text)

end BitcodeWrapper.Shell.Program
