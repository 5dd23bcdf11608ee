import BitcodeWrapper.Host.Search
import BitcodeWrapper.SourceFile

/-!
Which compiler driver runs, and where it is. A driver that was moved aside to make room for the
wrapper is preferred to what stands in its place.
-/
namespace BitcodeWrapper.Compiler

def wrapperName : String := "conjunct"

/-- Names the directory of the drivers when no configuration does. -/
def defaultDirectoryVariable : String := "CONJUNCT_DEFAULT_CLANG_DIR"

/-- Marks a driver that was moved aside. -/
def asideSuffix : String := ".original"

/-- A wrapper that stands in for a driver keeps its name; otherwise the language decides, and the
driver for C++ copes with what is not known to be C. -/
def driverName (invokedAs : String) (language : Language) : String :=
  if invokedAs != wrapperName && "clang".isPrefixOf invokedAs then invokedAs
  else if language = .c then "clang"
  else "clang++"

def preferAside (driver : String) : Action String := do
  let aside := driver ++ asideSuffix
  if ← Action.pathExists aside then
    Action.debug ("Using " ++ aside ++ " instead of " ++ driver)
    return aside
  return driver

/-- The driver to run: the one configured, or of that name in the directory configured, or in the
default directory, or the first one that the search list leads to. -/
def locate (configured : Option String) (name : String) : Action String := do
  match configured.filter (· != "") with
  | some path =>
    if ← Action.isDirectory path then preferAside (Path.join path name)
    else preferAside path
  | none =>
    match ((← get).environment.get? defaultDirectoryVariable).filter (· != "") with
    | some directory => preferAside (Path.join directory name)
    | none =>
      match (← get).findProgram? name with
      | some found => return found
      | none =>
        let cause := ConfigurationError.driverNotFound name defaultDirectoryVariable
        Action.log .error cause.message
        Action.refuse cause

end BitcodeWrapper.Compiler
