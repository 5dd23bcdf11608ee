import BitcodeWrapper.Host.Basic
import BitcodeWrapper.Path.Loose

/-!
Paths made absolute. Without links a path is brought into normal form as text; with links each name is
looked up first, so that `..` after a link leads to the parent of its target. Missing names stay.
-/
namespace BitcodeWrapper

namespace Files

/-- The links met so far, each with the location that it leads to once that is known. -/
abbrev Trail := List (Location × Option Location)

/-- Follows names from a location. A link that leads back to itself cannot be followed: then the text
of the path from there on is the answer. -/
def follow (fs : Files) : (depth : Nat) → Trail → Location → List String →
    Except String Location × Trail
  | _, trail, loc, [] => (.ok loc, trail)
  | depth, trail, loc, name :: rest =>
    if name = "" || name = "." then follow fs depth trail loc rest
    else if name = ".." then follow fs depth trail loc.dropLast rest
    else
      let next := loc ++ [name]
      let tail := String.intercalate "/" rest
      match fs.get? next with
      | some (.link target) =>
        match trail.lookup next with
        | some (some known) => follow fs depth trail known rest
        | some none => (.error (Path.join (Location.text next) tail), trail)
        | none =>
          match depth with
          | 0 => (.error (Path.join (Location.text next) tail), trail)
          | shallower + 1 =>
            match follow fs shallower ((next, none) :: trail)
                (if Path.isAbsolute target then [] else loc) (Path.names target) with
            | (.error stuck, trail) => (.error (Path.join stuck tail), trail)
            | (.ok known, trail) => follow fs (shallower + 1) ((next, some known) :: trail) known rest
      | _ => follow fs depth trail next rest
termination_by depth _ _ names => (depth, names.length)

/-- The absolute path without links. -/
def realPath (fs : Files) (here : Location) (path : String) : String :=
  let start := if Path.isAbsolute path then [] else here
  match (fs.follow fs.entries.length [] start (Path.names path)).1 with
  | .ok loc => Location.text loc
  | .error stuck => Path.normal stuck

/-- The absolute path in normal form, links kept. -/
def absolutePath (here : Location) (path : String) : String :=
  if Path.isAbsolute path then Path.normal path
  else Path.normal (Path.join (Location.text here) path)

end Files

namespace Host

/-- The text of a path with its home directory and its variables replaced. -/
def expandText (h : Host) (path : String) : String :=
  Path.expandVariables h.environment (Path.expandHome h.homes path)

/-- Makes a path absolute. Its directory has to exist. -/
def expandPath (h : Host) (path : String) (followLinks : Bool) : Except Fault String :=
  let expanded := h.expandText path
  if (followLinks && Files.hasNul expanded) || Path.namesAccountWithNul path then
    .error .invalidValue
  else
    let whole :=
      if followLinks then h.files.realPath h.here expanded
      else Files.absolutePath h.here expanded
    let parent := Path.directory whole
    if h.isDirectory parent then .ok whole
    else .error (.os ⟨.noSuchFile, "failed to expand path " ++ path, some parent⟩)

/-- The absolute path that a loose text stands for, whatever is there. -/
def looseWhole (h : Host) (text : LooseText) : Except Fault LooseText := do
  let ps ← Path.Loose.expandHome h.homes text.points
  return ⟨Path.Loose.absolute (Location.text h.here) (← Path.Loose.expandVariables h.environment ps)⟩

/-- Says whether a path leads to a directory, as the system reads it. -/
def isLooseDirectory (h : Host) (path : LooseText) : Bool := path.received?.any h.isDirectory

/-- Makes the path in a loose text absolute, with its links kept. -/
def expandLoose (h : Host) (text : LooseText) : Except Fault LooseText :=
  h.looseWhole text >>= fun whole =>
    let parent : LooseText := ⟨Path.Loose.directory whole.points⟩
    if h.isLooseDirectory parent then .ok whole
    else .error (.os ⟨.noSuchFile, "failed to expand path " ++ text.shown, some parent⟩)

end Host

namespace Action

def expandPath (path : String) (followLinks : Bool) : Action String := do
  match (← get).expandPath path followLinks with
  | .ok whole => return whole
  | .error fault => throw fault

end Action

end BitcodeWrapper
