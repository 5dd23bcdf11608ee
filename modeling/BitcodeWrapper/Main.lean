import BitcodeWrapper.Command
import BitcodeWrapper.Sanity.Check

/-!
The two commands on a machine in memory. The first argument is the name that a command is run as, and
each line of the input names a file to copy into that machine.
-/
namespace BitcodeWrapper.Main

/-- The sanity check runs under this name, the wrapper under every other one. -/
def sanityName : String := "conjunct-sanity-checker"

def platform : String := "linux"

def inheritedVariables : List String :=
  [Host.searchVariable, "HOME", "TMPDIR", Compiler.defaultDirectoryVariable, Log.levelVariable,
    Log.destinationVariable]

def run (name : String) (arguments : List String) : Action Int :=
  if Path.base name = sanityName then Sanity.check platform arguments.head?
  else Command.run Runner.processes name arguments

def locationOf (path : String) : Location :=
  (Path.names (Path.normal path)).filter (· != "")

/-- A machine with a shell, a directory for workspaces and nothing else. -/
def emptyMachine (environment : Bindings) (here : Location) : Host where
  files := ((⟨[]⟩ : Files).install ["bin", "sh"] .shell |>.install ["tmp"] .directory).install here .directory
  here := here
  environment := environment
  accounts := []
  temporary := "/tmp"
  attempts := 0
  logging := .initial
  records := []
  output := []
  diagnostics := ""
  launches := []

def withFile (h : Host) (path : String) (content : Bytes) : Host :=
  let whole := Files.absolutePath h.here path
  { h with files := h.files.install (locationOf whole) (.file content true) }

partial def copyFiles (input : IO.FS.Stream) (h : Host) : IO Host := do
  let line ← input.getLine
  if line.isEmpty then return h
  let path := line.trimAscii.toString
  let content ← IO.FS.readBinFile path
  copyFiles input (withFile h path content.toList)

def inheritedEnvironment : IO Bindings := do
  let values ← inheritedVariables.mapM fun name => return (name, ← IO.getEnv name)
  return values.filterMap fun e => e.2.map (e.1, ·)

/-- Shows what a run printed and gives its exit code. -/
def finish (code : UInt8) (h : Host) : IO UInt32 := do
  let output ← IO.getStdout
  output.write ⟨h.output.toArray⟩
  output.flush
  (← IO.getStderr).putStr h.diagnostics
  return code.toUInt32

end BitcodeWrapper.Main

open BitcodeWrapper in
def main (arguments : List String) : IO UInt32 := do
  let here ← IO.currentDir
  let machine := Main.emptyMachine (← Main.inheritedEnvironment) (Main.locationOf here.toString)
  let machine ← Main.copyFiles (← IO.getStdin) machine
  match (Main.run (arguments.headD Compiler.wrapperName) (arguments.drop 1)).run machine with
  | .ok code h => Main.finish (UInt8.ofNat (code % 256).toNat) h
  | .error _ h => Main.finish 1 h
