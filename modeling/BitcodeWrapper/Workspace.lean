import BitcodeWrapper.Host.Resolve

/-!
The directory that holds the bitcode files of one run. Its name is the package's with eight more
characters, and no entry of that name exists when it is made.
-/
namespace BitcodeWrapper.Workspace

def nameStem : String := "conjunct"

/-- The last eight decimal digits, with zeros before them. -/
def eightDigits (n : Nat) : String :=
  String.ofList ((List.range 8).reverse.map fun k => Char.ofNat (48 + n / Nat.pow 10 k % 10))

def nameOf (n : Nat) : String := nameStem ++ eightDigits n

def pathOf (h : Host) (n : Nat) : String := Path.join h.temporary (nameOf n)

/-- The first number from `n` on whose name is free. -/
def firstFree (h : Host) : (fuel : Nat) → Nat → Nat
  | 0, n => n
  | fuel + 1, n =>
    match h.files.find h.here false (pathOf h n) with
    | .ok ⟨_, some _⟩ => firstFree h fuel (n + 1)
    | _ => n

/-- The number that the next directory is named after. -/
def nextNumber (h : Host) : Nat := firstFree h h.files.entries.length (h.attempts + 1)

/-- The refusal when every name is taken. -/
def noFreeName : OsError := ⟨.fileExists, "No usable temporary directory name found", none⟩

/-- Makes the directory and returns its path. -/
def make : Action String := do
  let h ← get
  let n := nextNumber h
  let path := pathOf h n
  set { h with attempts := n }
  match h.files.find h.here false path with
  | .ok ⟨loc, none⟩ =>
    modify fun h => { h with files := h.files.put loc .directory }
    Action.debug ("Created temp dir " ++ path)
    return path
  | .ok ⟨_, some _⟩ => Action.fail (.workspace (.directory noFreeName))
  | .error e => Action.fail (.workspace (.directory (.on e path)))

/-- Makes an empty file of a name and returns its absolute path, with links followed. -/
def createFile (directory name : String) : Action String := do
  let path := Path.join directory name
  if Files.hasNul path then throw .invalidValue
  let h ← get
  match h.files.openForWriting h.here false path with
  | .error e => Action.fail (.workspace (.file path (.on e path)))
  | .ok (files, _) =>
    set { h with files := files }
    match ({ h with files := files } : Host).expandPath path true with
    | .ok whole => return whole
    | .error (.os e) => Action.fail (.workspace (.file path e))
    | .error fault => throw fault

def noPath : String := "None"

/-- Removes the directory with all it holds, or says where it is kept. One that was never made has no
path. -/
def release (retain : Bool) (path : Option String) : Action Unit := do
  let shown := path.getD noPath
  if retain then
    Action.notify ("conjunct: retaining temp dir " ++ shown ++ "\n")
  else
    Action.debug ("Removing temp dir " ++ shown)
    modify fun h =>
      match path with
      | none => h
      | some path =>
        match h.files.find h.here false path with
        | .ok ⟨loc, some .directory⟩ => { h with files := h.files.remove loc }
        | _ => h

end BitcodeWrapper.Workspace
