import BitcodeWrapper.Host.Errno
import BitcodeWrapper.Text.Loose

/-!
What can go wrong in a run, by cause. Every failure of the wrapper itself carries the exit code that
the process ends with and has one message.
-/
namespace BitcodeWrapper

/-- The exit code when no child process is to blame. -/
def internalExitCode : Int := 1

/-- A child killed by signal `n` has the return code `-n`; it is reported as `128 + n`. -/
def exitCodeFor : Option Int → Int
  | none => internalExitCode
  | some code => if code < 0 then 128 - code else code

inductive ConfigurationError where
  | driverNotFound (binary setting : String)
  | probeNotStarted (path : LooseText) (cause : OsError)
  | probeFailed (path : LooseText) (output : String)
  | wrongBinary (path : LooseText) (expected : String)
  | notMapping (key : String)
  | notList (key : String)
  | pathNotExpanded (tool : String) (path : LooseText) (cause : OsError)
  | unreadable (cause : OsError)
  | blank
  | illFormed (reason : String)
  | notTopLevelMapping
  | seedMissing
  | optimizerMissing
  | fileNotNamed (flag : String)
  deriving Repr, DecidableEq

def ConfigurationError.message : ConfigurationError → String
  | driverNotFound binary setting =>
    "Could not find " ++ binary ++ " in $PATH; set " ++ setting ++ " or use a configuration file"
  | probeNotStarted path cause => "Failed to run " ++ path.shown ++ ": " ++ cause.message
  | probeFailed path output => "Failed to run " ++ path.shown ++ ": " ++ output
  | wrongBinary path expected => "Not " ++ expected ++ " binary: " ++ path.shown
  | notMapping key => "\"" ++ key ++ "\" must be a mapping in the Conjunct config YAML file"
  | notList key => "\"" ++ key ++ "\" must be a list in the Conjunct config YAML file"
  | pathNotExpanded tool path cause =>
    "Failed to expand " ++ tool ++ " path " ++ path.shown ++ ": " ++ cause.message
  | unreadable cause => "Failed to read YAML file: " ++ cause.message
  | blank => "Empty YAML file"
  | illFormed reason => "Failed to parse YAML file: " ++ reason
  | notTopLevelMapping => "Failed to parse YAML file: expected a mapping at the top level"
  | seedMissing => "Missing seed in Conjunct config YAML file"
  | optimizerMissing => "Missing opt in Conjunct config YAML file"
  | fileNotNamed flag => flag ++ " needs a file"

/-- Says whether the message is made of characters, so that it can be printed as it is. -/
def ConfigurationError.isPrintable : ConfigurationError → Bool
  | probeNotStarted path _ | probeFailed path _ | wrongBinary path _ | pathNotExpanded _ path _ => path.isPlain
  | _ => true

inductive WorkspaceError where
  | directory (cause : OsError)
  | file (path : String) (cause : OsError)
  deriving Repr, DecidableEq

def WorkspaceError.message : WorkspaceError → String
  | directory cause => "while creating temp dir: " ++ cause.message
  | file path cause => "while creating temp file " ++ path ++ ": " ++ cause.message

/-- What a failed stage printed: the bytes of its process, or a text. -/
inductive StageOutput where
  | bytes (content : Bytes)
  | text (content : String)
  deriving Repr, DecidableEq

def StageOutput.shown : StageOutput → String
  | bytes content => Text.Utf8.decodeLossy content
  | text content => content

/-- A stage that could not be launched has no return code. -/
structure StageError where
  stage : String
  command : List String
  returnCode : Option Int
  output : StageOutput
  deriving Repr, DecidableEq

namespace StageError

def message (e : StageError) : String :=
  e.stage ++ " failed: " ++ e.output.shown

/-- A return code of zero is not the code of a failure. -/
def exitCode (e : StageError) : Int :=
  if e.returnCode = some 0 then internalExitCode else exitCodeFor e.returnCode

end StageError

inductive Failure where
  | configuration (cause : ConfigurationError)
  | workspace (cause : WorkspaceError)
  | missingOutput
  | stage (cause : StageError)
  deriving Repr, DecidableEq

namespace Failure

def message : Failure → String
  | configuration cause => cause.message
  | workspace cause => cause.message
  | missingOutput => "missing -o argument"
  | stage cause => cause.message

def exitCode : Failure → Int
  | stage cause => cause.exitCode
  | _ => internalExitCode

def isPrintable : Failure → Bool
  | configuration cause => cause.isPrintable
  | _ => true

end Failure

/-- All that can end a computation early. Only failures of the wrapper itself are handled by it. -/
inductive Fault where
  | failure (cause : Failure)
  | os (cause : OsError)
  /-- The program ended itself with exit code one. -/
  | ended
  /-- Bytes that had to be text are not. -/
  | notText
  /-- The system or the output is given a NUL or a lone surrogate, or a scalar has a form but no value, or
  there are too many digits or too deep collections. -/
  | invalidValue
  deriving Repr, DecidableEq

end BitcodeWrapper
