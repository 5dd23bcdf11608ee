import BitcodeWrapper.Bindings
import BitcodeWrapper.Failure
import BitcodeWrapper.Host.Files
import BitcodeWrapper.Log
import BitcodeWrapper.Path.Expansion

/-!
The machine that the wrapper runs on, and computations over it. What was done before a fault stays
done.
-/
namespace BitcodeWrapper

/-- Where log records go besides the list of those that passed. -/
structure LogSettings where
  threshold : Log.Level
  form : Log.Form
  toDiagnostics : Bool
  copyTo : Option Location
  deriving Repr, DecidableEq

namespace LogSettings

/-- Every record passes and none is written. -/
def silent : LogSettings := ⟨.debug, .bare, false, none⟩

/-- As long as nothing is set up, messages are written without their levels. -/
def initial : LogSettings := ⟨.warning, .bare, true, none⟩

/-- A threshold, the form that goes with it and perhaps a copy. -/
def configured (threshold : Log.Level) (copyTo : Option Location) : LogSettings :=
  ⟨threshold, Log.formFor threshold, true, copyTo⟩

end LogSettings

/-- A command handed to the runner, with its own environment if it has one, and the files then. -/
structure Launch where
  command : List String
  environment : Option Bindings
  files : Files

structure Host where
  files : Files
  here : Location
  environment : Bindings
  accounts : Bindings
  /-- The account that the wrapper runs under, if it is known by a name. -/
  account : Option String := none
  /-- The directory that workspaces are made in. -/
  temporary : String
  /-- How many workspaces were tried so far. -/
  attempts : Nat
  logging : LogSettings
  /-- The place in the program that each of its own records comes from. -/
  places : Log.Level → String → Log.Origin := fun _ _ => ⟨"", 0, ""⟩
  records : List Log.Record
  output : Bytes
  diagnostics : String
  launches : List Launch

/-- A computation on the machine. -/
abbrev Action := EStateM Fault Host

namespace Host

def homes (h : Host) : Path.Homes :=
  ⟨(h.environment.get? "HOME").or (h.account.bind h.accounts.get?), h.accounts⟩

def isDirectory (h : Host) (path : String) : Bool := h.files.isDirectory h.here path

def pathExists (h : Host) (path : String) : Bool := h.files.pathExists h.here path

def writeRecord (h : Host) (r : Log.Record) : Host :=
  let line := h.logging.form.write r
  { h with
    diagnostics := if h.logging.toDiagnostics then h.diagnostics ++ line else h.diagnostics
    files := match h.logging.copyTo with
      | some loc => h.files.append loc (Text.Utf8.encode line)
      | none => h.files }

/-- A record that passes the threshold is written. The package's own are kept, but not those that only
announce a command. -/
def accept (h : Host) (r : Log.Record) : Host :=
  if Log.passes h.logging.threshold r then
    writeRecord { h with records := if r.isKept then h.records ++ [r] else h.records } r
  else h

/-- The package's own record of a message. -/
def ownRecord (h : Host) (level : Log.Level) (message : String) : Log.Record :=
  ⟨Log.package, level, h.places level message, message⟩

end Host

namespace Action

def fail {α : Type} (cause : Failure) : Action α := throw (.failure cause)

def refuse {α : Type} (cause : ConfigurationError) : Action α := fail (.configuration cause)

def getVariable (name : String) : Action (Option String) :=
  return (← get).environment.get? name

def log (level : Log.Level) (message : String) : Action Unit :=
  modify fun h => h.accept (h.ownRecord level message)

def debug (message : String) : Action Unit := log .debug message

def notify (text : String) : Action Unit :=
  modify fun h => { h with diagnostics := h.diagnostics ++ text }

def printBytes (bytes : Bytes) : Action Unit :=
  modify fun h => { h with output := h.output ++ bytes }

/-- Hands on what a child printed. A stream of text takes it with ill-formed pieces replaced. -/
def echo (isBinary : Bool) (bytes : Bytes) : Action Unit :=
  printBytes (if isBinary then bytes else Text.Utf8.encode (Text.Utf8.decodeLossy bytes))

def printLine (text : String) : Action Unit :=
  printBytes (Text.Utf8.encode (text ++ "\n"))

def isDirectory (path : String) : Action Bool :=
  return (← get).isDirectory path

def pathExists (path : String) : Action Bool :=
  return (← get).pathExists path

end Action

end BitcodeWrapper
