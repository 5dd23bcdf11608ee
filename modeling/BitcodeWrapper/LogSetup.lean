import BitcodeWrapper.Host.Resolve

/-!
Logging set up from the environment. The file gets a copy of everything, since builds tend to swallow
diagnostics.
-/
namespace BitcodeWrapper.LogSetup

/-- The destination and the level that the environment asks for. -/
def requested (h : Host) : Option String × Option String :=
  (h.environment.get? Log.destinationVariable, h.environment.get? Log.levelVariable)

/-- Opens the copy, at the end of what the file holds already. -/
def openCopy : Action (Option Location) := do
  let h ← get
  match (requested h).1.filter (· != "") with
  | none => return none
  | some destination =>
    let path := Files.absolutePath h.here destination
    match h.files.openForWriting h.here true path with
    | .error e => throw (.os (.on e path))
    | .ok (files, loc) =>
      set { h with files := files }
      return some loc

/-- An unknown level is reported, in the form that leaves the place of a record out, and ends the program. -/
def configure (isVerbose : Bool) : Action Unit := do
  let copy ← openCopy
  modify fun h => { h with logging := .configured .warning copy }
  match Log.threshold isVerbose (requested (← get)).2 with
  | .ok threshold => modify fun h => { h with logging := .configured threshold copy }
  | .error name =>
    modify fun h => h.accept ⟨"root", .error, ⟨"", 0, ""⟩, Log.unknownLevelMessage name⟩
    throw .ended

end BitcodeWrapper.LogSetup
