import BitcodeWrapper.Compiler
import BitcodeWrapper.Config.Basic
import BitcodeWrapper.Job
import BitcodeWrapper.StageCommand

/-!
The compile job. For a compile-only command line the object file is built in three stages: the
driver emits bitcode, the optimizer runs its passes over it, and the driver builds the object file
from what comes out. Any other command line goes to the driver untouched.
-/
namespace BitcodeWrapper.Pipeline

open Job (debug log)

/-- Names the bitcode files when the source file cannot be found. -/
def unknownSource : String := "translation-unit"

/-- What comes of a stage once its command has answered. -/
def settle (stage : String) (command : List String) : Except Fault Reply → Job Bytes
  | .error (.os e) =>
    Job.fail (.stage ⟨stage, command, none, .bytes (Text.Utf8.encode e.message)⟩)
  | .error fault => Job.failed fault
  | .ok reply =>
    if reply.code != 0 then
      Job.fail (.stage ⟨stage, command, some reply.code, .bytes reply.output⟩)
    else do
      debug (stage ++ " output:\n" ++ Text.Utf8.decodeLossy reply.output)
      return reply.output

/-- Runs the command of a stage and returns what it printed. A dry run stops short of it. -/
def runStage (stage : String) (command : List String) (isDryRun : Bool)
    (environment : Option Bindings) : Job Bytes := do
  debug (stage ++ ": " ++ Text.quotedList command)
  if isDryRun then
    debug "Dry-run: not running above command"
    return []
  settle stage command (← Job.attempt (Job.launch command environment))

/-- Stage one: emits the bitcode of a source file and returns its path. -/
def emitBitcode (source driver : String) (args : Arguments) (workspace : String)
    (isDryRun : Bool) : Job String := do
  let bitcode ← Job.createFile workspace (source ++ ".bc")
  let command := driver :: StageCommand.emitBitcode args bitcode
  log .info ("Emitting bitcode for " ++ source)
  let _ ← runStage "emitting bitcode" command isDryRun none
  if !isDryRun then log .info ("Bitcode generated in " ++ bitcode)
  return bitcode

/-- The environment of the optimizer: the wrapper's own with the configured names bound anew. -/
def optimizerEnvironment (own : Bindings) (c : Config) : Bindings :=
  own.update c.optimizerEnvironment

/-- Stage two: runs the optimizer over bitcode and returns the path of what comes out. -/
def schedulePasses (source : String) (c : Config) (bitcode workspace : String)
    (isDryRun : Bool) : Job String := do
  let optimized ← Job.createFile workspace (Path.stem bitcode ++ ".opt.bc")
  let command := c.optimizer :: StageCommand.schedulePasses c.optimizerArguments bitcode optimized
  debug ("Running opt on " ++ source ++ " @ " ++ bitcode ++ " -> " ++ optimized)
  let own ← Job.environment
  let _ ← runStage "running opt" command isDryRun (some (optimizerEnvironment own c))
  if !isDryRun then log .info "Opt ran successfully"
  return optimized

/-- Stage three: builds the object file and returns its path, which the arguments have to name. -/
def buildBitcode (driver bitcode : String) (args : Arguments) (isDryRun : Bool) : Job String := do
  let buildArgs := StageCommand.buildBitcode args bitcode
  let object := buildArgs.valueOf StageCommand.outputFlag
  if object = "" then Job.fail .missingOutput
  else
    debug ("Building bitcode " ++ bitcode ++ " to an object file")
    let _ ← runStage "building bitcode" (driver :: buildArgs) isDryRun none
    if !isDryRun then
      log .info ("Successfully built bitcode for " ++ bitcode ++ " at " ++ object)
    return object

/-- The three stages in one workspace. A dry run goes through them without running them, and then
runs the driver once on the arguments given, so that the build gets its object file. -/
def stages (c : Config) (driver source : String) (args : Arguments) (workspace : String) :
    Job String := do
  let bitcode ← emitBitcode source driver args workspace c.isDryRun
  let optimized ← schedulePasses source c bitcode workspace c.isDryRun
  let object ← buildBitcode driver optimized args c.isDryRun
  if c.isDryRun then
    debug "Running original clang during dry-run..."
    let _ ← runStage "running original clang during dry-run" (driver :: args) false none
  return object

/-- The name that the files of a run are called after. -/
def fileName (args : Arguments) : String :=
  let source := SourceFile.ofArguments args
  if source.name = "" then unknownSource else source.name

/-- Records what is compiled and returns the name for its files. -/
def sourceName (args : Arguments) : Job String := do
  let source := SourceFile.ofArguments args
  if source.name = "" then
    log .warning ("Could not find the source file in " ++ Text.quotedList args)
  else
    debug (source.name ++ " is " ++ source.language.name)
  return fileName args

/-- Compiles one source file and returns the path of its object file. -/
def compile (c : Config) (driver : String) (args : Arguments) : Job String := do
  debug ("Config: " ++ c.shown ++ ", args: " ++ Text.quotedList args)
  let source ← sourceName args
  let object ← Job.withWorkspace c.retainsWorkspace (stages c driver source args)
  log .info ("Conjunct ran successfully on " ++ source)
  return object

/-- Runs the driver on the arguments given, hands on what it prints and returns its exit code. -/
def forward (driver : String) (args : Arguments) : Job Int := do
  debug "Running original clang..."
  match ← Job.attempt (Job.launch (driver :: args) none) with
  | .error (.os e) =>
    log .error ("failed to run original clang " ++ driver ++ ": " ++ e.message)
    return internalExitCode
  | .error fault => Job.failed fault
  | .ok reply =>
    Job.echo reply.output
    if reply.code != 0 then debug ("original clang returned " ++ toString reply.code)
    return exitCodeFor (some reply.code)

def passThrough (runner : Runner) (driver : String) (args : Arguments) : Action Int :=
  (forward driver args).run runner

/-- All that is left to do once the driver is found. Only a compile step is worth the three stages. -/
def work (c : Config) (driver : String) (args : Arguments) : Job Int := do
  if !args.has SourceFile.compileFlag then
    debug "Not an object compilation step: using Clang instead"
    forward driver args
  else
    let _ ← compile c driver args
    return 0

/-- What a return code looks like in a record; a command that was not launched has none. -/
def shownCode : Option Int → String
  | some code => toString code
  | none => "None"

/-- The record of a failure that ends a run. -/
def report : Failure → String
  | .stage e => e.stage ++ " failed (" ++ shownCode e.returnCode ++ "):\n" ++ e.output.shown
  | cause => cause.message

/-- A failure is recorded and becomes its exit code; any other fault goes on. -/
def handle : Fault → Action Int
  | .failure cause => do
    Action.log .error (report cause)
    return cause.exitCode
  | fault => throw fault

/-- The driver of a run: its name goes by what the wrapper is run as and what it is given to compile. -/
def locateDriver (c : Config) (invokedAs : String) (args : Arguments) : Action String :=
  Compiler.locate c.driver (Compiler.driverName invokedAs (SourceFile.ofArguments args).language)

/-- Compiles or passes through, and returns the exit code of the whole run. -/
def dispatch (runner : Runner) (c : Config) (invokedAs : String) (args : Arguments) : Action Int :=
  tryCatch (do
    let driver ← locateDriver c invokedAs args
    (work c driver args).run runner) handle

end BitcodeWrapper.Pipeline
