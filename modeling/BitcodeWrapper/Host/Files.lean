import BitcodeWrapper.Host.Errno
import BitcodeWrapper.Path.Basic

/-!
The file tree: a finite map from locations to entries. A location is the list of names from the root,
free of links; a path is text that is looked up name by name, through links.
-/
namespace BitcodeWrapper

abbrev Location := List String

namespace Location

def text (loc : Location) : String :=
  "/" ++ String.intercalate "/" loc

end Location

inductive Entry where
  | file (content : Bytes) (isExecutable : Bool)
  | directory
  | link (target : String)
  /-- The program that interprets scripts. -/
  | shell
  /-- Takes every byte written to it and holds none. -/
  | sink
  deriving Repr, DecidableEq

structure Files where
  entries : List (Location × Entry)
  deriving Repr, DecidableEq

namespace Files

/-- The root is always a directory. -/
def get? (fs : Files) (loc : Location) : Option Entry :=
  if loc = [] then some .directory else fs.entries.lookup loc

def put (fs : Files) (loc : Location) (e : Entry) : Files :=
  ⟨(loc, e) :: fs.entries.filter fun x => x.1 != loc⟩

/-- Takes out an entry with all that lies below it. -/
def remove (fs : Files) (loc : Location) : Files :=
  ⟨fs.entries.filter fun x => !loc.isPrefixOf x.1⟩

/-- Everything below a location, named from there. -/
def below (fs : Files) (loc : Location) : List (Location × Entry) :=
  fs.entries.filterMap fun x =>
    if loc.isPrefixOf x.1 && loc.length < x.1.length then some (x.1.drop loc.length, x.2) else none

theorem lookup_filter_keys (keep : Location → Bool) (entries : List (Location × Entry)) (x : Location) :
    (entries.filter fun y => keep y.1).lookup x = if keep x then entries.lookup x else none := by
  induction entries with
  | nil => simp
  | cons y ys ih =>
    obtain ⟨loc, e⟩ := y
    by_cases hxy : x = loc
    · subst hxy
      by_cases hk : keep x = true <;> simp [hk, ih]
    · by_cases hk : keep loc = true <;>
        simp [hk, ih, List.lookup_cons, beq_eq_false_iff_ne.mpr hxy]

theorem get?_put (fs : Files) (loc x : Location) (e : Entry) (h : loc ≠ []) :
    (fs.put loc e).get? x = if x = loc then some e else fs.get? x := by
  unfold get? put
  by_cases hx : x = loc
  · subst hx; simp [h]
  · simp only [hx, if_false, List.lookup_cons, beq_eq_false_iff_ne.mpr hx]
    rw [lookup_filter_keys fun y => y != loc]
    simp [hx]

theorem get?_remove (fs : Files) (loc x : Location) (h : loc ≠ []) :
    (fs.remove loc).get? x = if loc.isPrefixOf x then none else fs.get? x := by
  unfold get? remove
  rw [lookup_filter_keys fun y => !loc.isPrefixOf y]
  by_cases hx : x = []
  · subst hx
    cases loc with
    | nil => exact absurd rfl h
    | cons a as => simp
  · by_cases hp : loc.isPrefixOf x = true <;> simp [hx, hp]

/-- What a path leads to: a location, and its entry unless only the last name is missing. -/
structure Found where
  location : Location
  entry : Option Entry
  deriving Repr, DecidableEq

def longestName : Nat := 255

def longestPath : Nat := 4095

def linkLimit : Nat := 40

/-- Looks names up one after the other. Every name but the last must lead to a directory. A link is
replaced by its target, at most `budget` times; one in last place is kept if `follow` is false. -/
def walk (fs : Files) (follow : Bool) : (budget : Nat) → List String → Location → Except Errno Found
  | _, [], loc => .ok ⟨loc, fs.get? loc⟩
  | budget, name :: rest, loc =>
    if name = "" || name = "." then walk fs follow budget rest loc
    else if name = ".." then walk fs follow budget rest loc.dropLast
    else if longestName < name.utf8ByteSize then .error .nameTooLong
    else
      let next := loc ++ [name]
      match fs.get? next with
      | none => if rest = [] then .ok ⟨next, none⟩ else .error .noSuchFile
      | some .directory => walk fs follow budget rest next
      | some (.link target) =>
        if rest = [] && !follow then .ok ⟨next, some (.link target)⟩
        else match budget with
          | 0 => .error .tooManyLinks
          | budget + 1 =>
            walk fs follow budget (Path.names target ++ rest)
              (if Path.isAbsolute target then [] else loc)
      | some e => if rest = [] then .ok ⟨next, some e⟩ else .error .notDirectory
termination_by budget names => (budget, names.length)

/-- Looks a path up from a current directory. -/
def find (fs : Files) (here : Location) (follow : Bool) (path : String) : Except Errno Found :=
  if path = "" then .error .noSuchFile
  else if longestPath < path.utf8ByteSize then .error .nameTooLong
  else walk fs follow linkLimit (Path.names path) (if Path.isAbsolute path then [] else here)

/-- The entry that a path leads to. -/
def stat (fs : Files) (here : Location) (path : String) : Except Errno (Location × Entry) :=
  match fs.find here true path with
  | .error e => .error e
  | .ok ⟨_, none⟩ => .error .noSuchFile
  | .ok ⟨loc, some e⟩ => .ok (loc, e)

def hasNul (path : String) : Bool := path.toList.contains '\x00'

def pathExists (fs : Files) (here : Location) (path : String) : Bool :=
  !hasNul path && (fs.stat here path).isOk

def isDirectory (fs : Files) (here : Location) (path : String) : Bool :=
  !hasNul path && match fs.stat here path with
    | .ok (_, .directory) => true
    | _ => false

/-- A file may be executed if any of its permission bits says so. -/
def Entry.mayExecute : Entry → Bool
  | .file _ isExecutable => isExecutable
  | .shell => true
  | _ => false

/-- Says whether a path leads to something executable other than a directory. -/
def isProgram (fs : Files) (here : Location) (path : String) : Bool :=
  !hasNul path && match fs.stat here path with
    | .ok (_, e) => Entry.mayExecute e
    | .error _ => false

def read (fs : Files) (here : Location) (path : String) : Except Errno Bytes :=
  match fs.stat here path with
  | .error e => .error e
  | .ok (_, .directory) => .error .isDirectory
  | .ok (_, .file content _) => .ok content
  | .ok (_, _) => .ok []

/-- A path that ends in a slash names a directory, whatever is there, if its parent is one. -/
def refuseSlash (fs : Files) (here : Location) (path : String) : Errno :=
  let parent := Path.directory (Path.directory path)
  match fs.stat here (if parent = "" then "." else parent) with
  | .error e => e
  | .ok (_, .directory) => .isDirectory
  | .ok _ => .notDirectory

/-- Opens a path for writing: makes the file if it is missing, and empties it unless `keep` is set. -/
def openForWriting (fs : Files) (here : Location) (keep : Bool) (path : String) :
    Except Errno (Files × Location) :=
  if path.toList.getLast? = some Path.slash then .error (fs.refuseSlash here path)
  else match fs.find here true path with
    | .error e => .error e
    | .ok ⟨loc, none⟩ => .ok (fs.put loc (.file [] false), loc)
    | .ok ⟨loc, some e⟩ =>
      match e with
      | .directory => .error .isDirectory
      | .file content isExecutable =>
        .ok (fs.put loc (.file (if keep then content else []) isExecutable), loc)
      | _ => .ok (fs, loc)

def append (fs : Files) (loc : Location) (bytes : Bytes) : Files :=
  match fs.get? loc with
  | some (.file content isExecutable) => fs.put loc (.file (content ++ bytes) isExecutable)
  | _ => fs

/-- Makes an entry at a location, and missing directories on the way there. Links on the way are
followed; a link in last place is written through unless the entry is a link itself. -/
def install (fs : Files) (loc : Location) (e : Entry) : Files :=
  let step := fun (spot : Files × Location) name =>
    match spot.1.walk true linkLimit [name] spot.2 with
    | .ok ⟨next, some _⟩ => (spot.1, next)
    | .ok ⟨next, none⟩ => (spot.1.put next .directory, next)
    | .error _ => (spot.1, spot.2 ++ [name])
  let (fs, parent) := loc.dropLast.foldl step (fs, [])
  let throughLinks := match e with
    | .link _ => false
    | _ => true
  match fs.walk throughLinks linkLimit (loc.drop (loc.length - 1)) parent with
  | .ok found => fs.put found.location e
  | .error _ => fs

end Files

end BitcodeWrapper
