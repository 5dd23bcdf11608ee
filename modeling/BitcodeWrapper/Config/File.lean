import BitcodeWrapper.Config.Basic
import BitcodeWrapper.Host.Resolve
import BitcodeWrapper.Probe
import BitcodeWrapper.Text.Newline
import BitcodeWrapper.Yaml.Document

/-!
Configurations read from files. The tools that a file names are tried before it is accepted.
-/
namespace BitcodeWrapper.Config

open Yaml (Value)

/-- The entries of a document that is a mapping. -/
structure Settings where
  document : Yaml.Document
  entries : List (Value × Value)

namespace Settings

def ofDocument? (d : Yaml.Document) : Option Settings :=
  match d.root with
  | .collection id =>
    match d.collection id with
    | .mapping entries => some ⟨d, entries⟩
    | _ => none
  | _ => none

def get (s : Settings) (name : String) : Value := Value.entry s.entries name

/-- What a setting holds, if it is a collection. -/
def collection? (s : Settings) (name : String) : Option Yaml.Collection :=
  match s.get name with
  | .collection id => some (s.document.collection id)
  | _ => none

def textOf (s : Settings) (v : Value) : Action LooseText :=
  match s.document.text? v with
  | some text => return text
  | none => throw .invalidValue

end Settings

def fileText (path : String) : Action String := do
  if Files.hasNul path then throw .invalidValue
  let h ← get
  match h.files.read h.here path with
  | .error e => Action.refuse (.unreadable (.on e path))
  | .ok bytes =>
    match Text.Utf8.decode? bytes with
    | some text => return String.ofList (Text.withNewlines text.toList)
    | none => throw .notText

/-- What is said of a text that is not in the format of configurations. -/
def illFormedReason : String := "the text is not well formed"

def reader : Yaml.Reader := ⟨Yaml.read, fun _ => illFormedReason⟩

def settings (reader : Yaml.Reader) (text : String) : Action Settings := do
  if Text.isAllBlank text then Action.refuse .blank
  match reader.read text with
  | .error .illFormed => Action.refuse (.illFormed (reader.reason text))
  | .error _ => throw .invalidValue
  | .ok d =>
    match Settings.ofDocument? d with
    | some s => return s
    | none => Action.refuse .notTopLevelMapping

/-- The seed is an integer other than zero. -/
def seedOf (s : Settings) : Action Int :=
  match s.get "seed" with
  | .int n => if n = 0 then Action.refuse .seedMissing else return n
  | _ => Action.refuse .seedMissing

/-- The text of a setting that names a tool, if it is given. -/
def toolText? (s : Settings) (name : String) : Action (Option LooseText) := do
  let v := s.get name
  if s.document.isNothing v then return none
  return some (← s.textOf v)

/-- Links are not followed: a driver may behave by the name that it is run as. -/
def expandTool (name : String) (text : LooseText) : Action LooseText := do
  match (← get).expandLoose text with
  | .ok path => return path
  | .error (.os e) => Action.refuse (.pathNotExpanded name text e)
  | .error fault => throw fault

/-- The path that a setting for a tool leads to, if it is given. -/
def toolPath? (s : Settings) (name : String) : Action (Option LooseText) := do
  match ← toolText? s name with
  | none => return none
  | some text => return some (← expandTool name text)

/-- The driver, or the directory of the drivers, if one is named. -/
def driverOf (runner : Runner) (s : Settings) : Action (Option LooseText) := do
  match ← toolPath? s "clang" with
  | none => return none
  | some path =>
    if (← get).isLooseDirectory path then Action.debug ("clang directory is " ++ path.shown)
    else
      let _ ← Probe.versionText runner Probe.compiler path
    return some path

def optimizerOf (runner : Runner) (s : Settings) : Action LooseText := do
  match ← toolPath? s "opt" with
  | none => Action.refuse .optimizerMissing
  | some path =>
    let _ ← Probe.versionText runner Probe.optimizer path
    return path

def listOf (s : Settings) (name : String) : Action (List LooseText) := do
  match s.get name, s.collection? name with
  | .null, _ => return []
  | _, some (.list items) => items.mapM s.textOf
  | _, _ => Action.refuse (.notList name)

/-- A key without a value has an empty one. -/
def valueText (s : Settings) : Value → Action LooseText
  | .null => return ""
  | v => s.textOf v

def mappingOf (s : Settings) (name : String) : Action (Bindings LooseText) := do
  match s.get name, s.collection? name with
  | .null, _ => return []
  | _, some (.mapping entries) =>
    return Bindings.ofPairs (← entries.mapM fun (k, v) => return (← s.textOf k, ← valueText s v))
  | _, _ => Action.refuse (.notMapping name)

def passesFlag (passes : List LooseText) : List LooseText :=
  if passes.isEmpty then [] else ["-passes=" ++ LooseText.intercalate "," passes]

/-- The passes, then the arguments as given, then those given as keys with values. -/
def optimizerArgumentsOf (s : Settings) : Action (List LooseText) := do
  let passes ← listOf s "passes"
  let arguments ← listOf s "opt-args"
  let extra ← mappingOf s "opt-extra-args"
  return passesFlag passes ++ arguments ++ extra.map fun e => e.1 ++ ("=" : LooseText) ++ e.2

/-- Records a configuration. With a seed of too many digits it cannot be written, and is left out. -/
def record (c : Configuration LooseText) : Action Unit := do
  if (Decimal.integerText? c.seed).isSome then
    Action.debug ("Parsed Conjunct config file successfully: " ++ c.shownBy LooseText.quoted)

/-- Reads a configuration and tries its tools. -/
def ofFile (reader : Yaml.Reader) (runner : Runner) (path : String) (isDryRun retainsWorkspace : Bool) :
    Action (Configuration LooseText) := do
  let s ← settings reader (← fileText path)
  let seed ← seedOf s
  let driver ← driverOf runner s
  let optimizer ← optimizerOf runner s
  let arguments ← optimizerArgumentsOf s
  let environment ← mappingOf s "opt-env"
  let c : Configuration LooseText :=
    ⟨seed, driver, optimizer, arguments, environment, retainsWorkspace, isDryRun⟩
  record c
  return c

/-- The configuration in a file, as it is run with. -/
def load (runner : Runner) (path : String) (isDryRun retainsWorkspace : Bool) : Action Config :=
  return (← ofFile reader runner path isDryRun retainsWorkspace).handed

end BitcodeWrapper.Config
