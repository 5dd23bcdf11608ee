import BitcodeWrapper.Shell.Builtin.Basic
import BitcodeWrapper.Shell.Program

/-!
Commands about where a script is, and what the names of commands mean there.
-/
namespace BitcodeWrapper.Shell.Builtin

/-- A directory by its names, without looking at links. -/
def placeFrom (directory target : String) : String :=
  let start := if target.startsWith "/" then [] else Path.names directory
  let names := (start ++ Path.names target).foldl (fun names name =>
    if name = "" || name = "." then names
    else if name = ".." then names.dropLast
    else names ++ [name]) []
  "/" ++ String.intercalate "/" names

def isDirectoryAt? (s : State) (path : String) : Option Location :=
  match s.world.files.stat s.here (Octets.toText path) with
  | .ok (loc, .directory) => some loc
  | _ => none

def isRelative (target : String) : Bool :=
  !(target.startsWith "/") && !(["", ".", ".."].contains ((Path.names target).headD ""))

/-- The directory that a target means, which may be below one of a list, and whether it is shown. -/
def listed (s : State) (target : String) : String × Bool :=
  let list := (s.value? "CDPATH").getD ""
  if list = "" || !isRelative target then (target, false)
  else
    let candidates := (list.splitOn ":").map fun d => (if d = "" then target else d ++ "/" ++ target, d != "")
    (candidates.find? fun c => (isDirectoryAt? s c.1).isSome).getD (target, false)

def enter (place : String) (loc : Location) : Sh Unit := do
  Sh.assignVariable "OLDPWD" (← get).directory true
  modify fun s => { s with here := loc, directory := place }
  Sh.assignVariable "PWD" place true

def changeDirectory (args : List String) : Sh Nat := do
  let (os, args) ← options "LP" "" args
  let s ← get
  let value (name : String) : String := (s.value? name).getD ""
  let (target, returns) : String × Bool := match args with
    | [] => (value "HOME", false)
    | "-" :: _ => (value "OLDPWD", true)
    | a :: _ => (a, false)
  let (path, isElsewhere) := listed s (if target = "" then "." else target)
  let isPhysical := os.getLast?.any fun o => o.1 = 'P'
  let place := placeFrom s.directory path
  match isDirectoryAt? s (if isPhysical then path else place) with
  | none => Sh.fail ("can't cd to " ++ target)
  | some loc =>
    enter (if isPhysical then Octets.ofText (Location.text loc) else place) loc
    if returns || isElsewhere then Sh.print ((← get).directory ++ "\n")
    return 0

def showDirectory (args : List String) : Sh Nat := do
  let (os, _) ← options "LP" "" args
  let s ← get
  let isPhysical := os.getLast?.any fun o => o.1 = 'P'
  Sh.print ((if isPhysical then Octets.ofText (Location.text s.here) else s.directory) ++ "\n")
  return 0

/-- What the name of a command means, in words or just by the name that it has. -/
def describe (inWords : Bool) (name : String) : Sh Nat := do
  let s ← get
  let say (words plain : String) : Sh Nat := do
    Sh.print ((if inWords then name ++ words else plain) ++ "\n")
    return 0
  if reservedWords.contains name then say " is a shell keyword" name
  else
    match s.aliases.lookup name with
    | some value => say (" is an alias for " ++ value) ("alias " ++ name ++ "=" ++ quoted value)
    | none =>
      if (s.functions.lookup name).isSome then say " is a shell function" name
      else if isSpecial name then say " is a special shell builtin" name
      else if names.contains name then say " is a shell builtin" name
      else
        let path? := match Program.search s name with
          | .found (path :: _) =>
            if (s.world.files.stat s.here (Octets.toText path)).isOk then some path else none
          | _ => none
        match path? with
        | some path => say (" is " ++ path) path
        | none =>
          if inWords then Sh.print (name ++ ": not found\n")
          return 127

def describeAll (args : List String) : Sh Nat := do
  args.foldlM (fun status name => return max status (← describe true name)) 0

/-- The options of `command`, if it only describes; else what it is to run. -/
def commandOptions (args : List String) : Sh (Option Bool × List String) := do
  let (os, rest) ← options "pvV" "" args
  return ((os.filter fun o => o.1 != 'p').getLast?.map fun o => o.1 = 'V', rest)

/-- Looks programs up and says which ones are missing. -/
def lookUp (args : List String) : Sh Nat := do
  let (_, args) ← options "rv" "" args
  args.foldlM (fun status name => do
    let s ← get
    let isKnown := names.contains name || (s.functions.lookup name).isSome
    match if isKnown then .found [] else Program.search s name with
    | .found _ => return status
    | .missing =>
      Sh.complain (name ++ ": not found")
      return 1
    | .refused e =>
      Sh.complain (Program.refusal name e)
      return 1) 0

end BitcodeWrapper.Shell.Builtin
