import BitcodeWrapper.ArgumentVector
import BitcodeWrapper.Config.File

/-!
The wrapper's own flags on a compiler's command line.
-/
namespace BitcodeWrapper.Config

def fileFlag : String := "--conjunct-config-path"

def dryRunFlag : String := "--conjunct-dry-run"

def retainFlag : String := "--conjunct-retain-temp-dir"

/-- The arguments without the flags that have no value. -/
def withoutSwitches (args : Arguments) : Arguments :=
  (args.withoutEvery dryRunFlag false).withoutEvery retainFlag false

/-- Takes the wrapper's own flags out and loads the configuration that they name, if they do. -/
def extract (runner : Runner) (args : Arguments) : Action (Arguments × Option Config) := do
  Action.debug "Parsing conjunct params..."
  let rest := withoutSwitches args
  if !rest.has fileFlag then
    Action.debug ("Failed to find " ++ fileFlag)
    return (rest, none)
  let path := rest.valueOf fileFlag
  if path = "" then Action.refuse (.fileNotNamed fileFlag)
  let c ← load runner path (args.has dryRunFlag) (args.has retainFlag)
  return (rest.without fileFlag true, some c)

end BitcodeWrapper.Config
