import BitcodeWrapper.Shell.Expansion

/-!
Redirections: all targets are expanded before the first one is opened.
-/
namespace BitcodeWrapper.Shell

/-- What a redirection asks for, once its target is known. -/
inductive Aim where
  | path (kind : RedirectKind) (path : String)
  | copy (stream : Nat)
  | close
  | document (number : Nat)
  deriving Repr, DecidableEq

namespace Redirection

def openingError (isRead : Bool) (path : String) (e : Errno) : String :=
  let isMissing := e == .noSuchFile || e == .notDirectory
  if isRead then "cannot open " ++ path ++ ": " ++ (if isMissing then "No such file" else e.text)
  else "cannot create " ++ path ++ ": " ++ (if isMissing then "Directory nonexistent" else e.text)

def isRegular (files : Files) (here : Location) (path : String) : Bool :=
  match files.stat here path with
  | .ok (_, .file _ _) | .ok (_, .shell) => true
  | _ => false

/-- What an open file gives and takes, by the entry at its location. -/
def target (files : Files) (loc : Location) : Target :=
  match files.get? loc with
  | some (.file _ _) => .file loc
  | _ => .nothing

def addFile (o : OpenFile) : Sh Nat := do
  let s ← get
  let (id, world) := s.world.add o
  set { s with world }
  return id

def openForReading (path : String) : Sh Nat := do
  let s ← get
  match s.world.files.stat s.here (Octets.toText path) with
  | .error e => Sh.fail (openingError true path e)
  | .ok (loc, _) => addFile ⟨target s.world.files loc, 0, true, false, false⟩

def openForWriting (kind : RedirectKind) (path : String) : Sh Nat := do
  let s ← get
  let text := Octets.toText path
  if kind = .write && s.flags.contains 'C' && isRegular s.world.files s.here text then
    Sh.fail ("cannot create " ++ path ++ ": File exists")
  let keeps := kind = .append || kind = .readWrite
  match s.world.files.openForWriting s.here keeps text with
  | .error e => Sh.fail (openingError false path e)
  | .ok (files, loc) =>
    set { s with world := { s.world with files } }
    addFile ⟨target files loc, 0, kind = .readWrite, true, kind = .append⟩

def openPath (kind : RedirectKind) (path : String) : Sh Nat :=
  if kind = .read then openForReading path else openForWriting kind path

def aim (stream : Nat) (id? : Option Nat) : Sh Unit :=
  modify fun s =>
    { s with
      streams := (id?.map (stream, ·)).toList ++ s.streams.filter fun x => x.1 != stream }

def follow (substitute : Command → Sh String) (fuel stream : Nat) (a : Aim) : Sh Unit := do
  match a with
  | .path kind path => aim stream (some (← openPath kind path))
  | .copy source =>
    if source = stream then return
    match (← get).streams.lookup source with
    | some id => aim stream (some id)
    | none => Sh.fail (toString source ++ ": Bad file descriptor")
  | .close => aim stream none
  | .document number =>
    let w := ((← get).documents.lookup number).getD []
    let text ← Expansion.text substitute fuel .text w
    aim stream (some (← addFile ⟨.text (Octets.toBytes text), 0, true, false, false⟩))

def aimOf (substitute : Command → Sh String) (fuel : Nat) (r : Redirect) : Sh (Nat × Aim) := do
  match r.kind with
  | .document number => return (r.stream, .document number)
  | .copy =>
    let text ← Expansion.text substitute fuel .text r.target
    match text.toList with
    | ['-'] => return (r.stream, .close)
    | [d] => if d.isDigit then return (r.stream, .copy (d.toNat - 48)) else Sh.refuse "Bad fd number"
    | _ => Sh.refuse "Bad fd number"
  | kind => return (r.stream, .path kind (← Expansion.text substitute fuel .text r.target))

/-- Puts redirections in force. A failure to open leaves the status that it has. -/
def followAll (substitute : Command → Sh String) (fuel : Nat) (aims : List (Nat × Aim)) : Sh Unit :=
  aims.forM fun (stream, a) => follow substitute fuel stream a

def aims (substitute : Command → Sh String) (fuel : Nat) (rs : List Redirect) :
    Sh (List (Nat × Aim)) :=
  rs.mapM (aimOf substitute fuel)

end Redirection

end BitcodeWrapper.Shell
