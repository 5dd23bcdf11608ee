import BitcodeWrapper.Config.File
import BitcodeWrapper.LogSetup
import BitcodeWrapper.Release
import BitcodeWrapper.Sanity.Executable

/-!
The sanity check: a report on the environment and on a configuration file, as a first step when a build
fails.
-/
namespace BitcodeWrapper.Sanity

def configurationHelp : String :=
  "\n\nconjunct only rewrites a compilation when it is given a configuration file\n" ++
  "through the '--conjunct-config-path <file>' compiler flag. The file is YAML\n" ++
  "and needs at least a non-zero 'seed' and the path to 'opt'; 'clang' may name\n" ++
  "the clang binary or the directory holding clang and clang++.\n\n"

def defaultDirectoryHelp : String :=
  "\n\nWithout a configuration file (or without 'clang' in it) conjunct looks for\n" ++
  "clang and clang++ in the directory named by the environment variable\n" ++
  "CONJUNCT_DEFAULT_CLANG_DIR, and failing that in your PATH.\n\n"

def reportRelease : Action Unit := do
  Action.printLine ("conjunct version: " ++ Release.version)
  Action.printLine ("conjunct released: " ++ Release.date ++ "\n")

def reportLogging : Action Unit := do
  let (destination, level) := LogSetup.requested (← get)
  let named (s : Option String) : Option String := s.filter (· != "")
  Action.printLine ("Logging output to " ++ (named destination).getD "standard error" ++ ".")
  match named level with
  | none => Action.printLine "Logging level not set, defaulting to WARNING."
  | some level => Action.printLine ("Logging level set to " ++ level ++ ".")

/-- A text that is to be printed, which has to be made of characters. -/
def printable (text : LooseText) : Action String :=
  match text.plain? with
  | some line => return line
  | none => throw .invalidValue

/-- Reports on one tool; the line of its version text is the one that names it. -/
def report (what : String) (path : LooseText) (finding : Finding) (line : Int) : Action Unit := do
  let path ← printable path
  if finding.isUsable then
    Action.printLine ("The " ++ what ++ " " ++ path ++ " is:\n\n\t" ++
      versionLine (finding.text path) line ++ "\n")
  else
    Action.printLine ("The " ++ what ++ " " ++ path ++
      " was not found or not executable.\nBetter not try using conjunct!\n")

/-- One of the two drivers is enough. -/
def checkCompilers (cPath cppPath : LooseText) : Action Bool := do
  let c ← tryExecutable cPath.handed Probe.versionSwitch
  let cpp ← tryExecutable cppPath.handed Probe.versionSwitch
  report "C compiler" cPath c 0
  report "C++ compiler" cppPath cpp 0
  if !c.isUsable || !cpp.isUsable then Action.printLine defaultDirectoryHelp
  return c.isUsable || cpp.isUsable

def checkDefaultCompilers : Action Bool := do
  let drivers := defaultCompilers (← Action.getVariable Compiler.defaultDirectoryVariable)
  checkCompilers drivers.1 drivers.2

def checkTool (what : String) (path : LooseText) (line : Int) : Action Bool := do
  let finding ← tryExecutable path.handed Probe.versionSwitch
  report what path finding line
  return finding.isUsable

/-- The driver of this name in a directory. -/
def driverIn (directory : LooseText) (name : String) : LooseText := ⟨Path.Loose.join directory.points name⟩

def checkDriver : Option LooseText → Action Bool
  | none => checkDefaultCompilers
  | some path => do
    if (← get).isLooseDirectory path then checkCompilers (driverIn path "clang") (driverIn path "clang++")
    else checkTool "clang" path 0

/-- A configuration that cannot be used is reported, with the cause. -/
def loadReported (reader : Yaml.Reader) (path : String) : Action (Option (Configuration LooseText)) := do
  try
    return some (← Config.ofFile reader Runner.processes path false false)
  catch
    | .failure cause =>
      if !cause.isPrintable then throw .invalidValue
      Action.printLine ("The configuration file " ++ path ++ " is not usable:\n\n\t" ++
        cause.message ++ "\n")
      Action.printLine configurationHelp
      return none
    | fault => throw fault

def checkConfig (reader : Yaml.Reader) (path : String) : Action Bool := do
  match ← loadReported reader path with
  | none => return false
  | some c =>
    match Decimal.integerText? c.seed with
    | some seed => Action.printLine ("The configuration file " ++ path ++ " has seed " ++ seed ++ ".")
    | none => throw .invalidValue
    let arguments ← printable (LooseText.intercalate " " c.optimizerArguments)
    Action.printLine ("opt is run with: " ++ arguments ++ "\n")
    let isDriverUsable ← checkDriver c.driver
    let isOptimizerUsable ← checkTool "optimizer" c.optimizer 1
    return isDriverUsable && isOptimizerUsable

def exitCode (isSane : Bool) : Int := if isSane then 0 else 1

/-- Checks the environment, and the configuration file if one is named. -/
def checkWith (reader : Yaml.Reader) (platform : String) (path : Option String) : Action Int := do
  reportRelease
  reportLogging
  if !isSupported platform then
    Action.printLine "I do not think we support your OS. Sorry."
    return 1
  match path.filter (· != "") with
  | none =>
    Action.printLine configurationHelp
    return exitCode (← checkDefaultCompilers)
  | some path => return exitCode (← checkConfig reader path)

def check (platform : String) (path : Option String) : Action Int := checkWith Config.reader platform path

end BitcodeWrapper.Sanity
