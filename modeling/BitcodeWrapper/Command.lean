import BitcodeWrapper.Config.Flags
import BitcodeWrapper.LogSetup
import BitcodeWrapper.Pipeline
import BitcodeWrapper.Release

/-!
The command that stands in for the compiler driver.
-/
namespace BitcodeWrapper.Command

def versionFlag : String := "--conjunct-version"

def verboseFlag : String := "--conjunct-verbose"

def versionText (defaultDirectory : Option String) : String :=
  "Conjunct version " ++ Release.version ++ " | Default clang path: " ++ defaultDirectory.getD ""

/-- Without a configuration the driver is run as if the wrapper were not there. -/
def withoutConfig (runner : Runner) (invokedAs : String) (args : Arguments) : Action Int := do
  let source := SourceFile.ofArguments args
  let driver ← Compiler.locate none (Compiler.driverName invokedAs source.language)
  Pipeline.passThrough runner driver args

/-- The two ways on from the arguments, or the exit code of a failure on the way. -/
inductive Course where
  | ended (code : Int)
  | configured (args : Arguments) (c : Config)

def course (runner : Runner) (invokedAs : String) (args : Arguments) : Action Course := do
  try
    let (rest, config) ← Config.extract runner args
    match config with
    | some c => return .configured rest c
    | none => return .ended (← withoutConfig runner invokedAs rest)
  catch
    | .failure cause =>
      Action.log .error ("failed to extract config from args: " ++ cause.message)
      return .ended cause.exitCode
    | fault => throw fault

/-- Runs the command line `name :: given` and returns its exit code. -/
def run (runner : Runner) (name : String) (given : Arguments) : Action Int := do
  if given.has versionFlag then
    Action.printLine (versionText (← Action.getVariable Compiler.defaultDirectoryVariable))
    return 0
  let isVerbose := given.has verboseFlag
  let args := given.withoutEvery verboseFlag false
  LogSetup.configure isVerbose
  if isVerbose then Action.debug "Running conjunct in verbose mode"
  Action.log .info ("Entering CC [" ++ String.intercalate " " args ++ "]")
  let invokedAs := Path.base name
  match ← course runner invokedAs args with
  | .ended code => return code
  | .configured rest c =>
    let code ← Pipeline.dispatch runner c invokedAs rest
    Action.debug ("Calling " ++ Text.quotedList (name :: given) ++ " returned " ++ toString code)
    return code

end BitcodeWrapper.Command
