import BitcodeWrapper.Pipeline
import BitcodeWrapper.Proofs.Job.Visible

/-! What each stage of a compile step shows: the file it makes, the command it launches unless the run is
dry, and how the answers to these settle its result. -/
namespace BitcodeWrapper.Pipeline
open Job

/-- What a stage makes of the answer to its command. -/
def settled (stage : String) (command : List String) : Except Fault Reply → Except Fault Bytes
  | .error (.os e) =>
    .error (.failure (.stage ⟨stage, command, none, .bytes (Text.Utf8.encode e.message)⟩))
  | .error fault => .error fault
  | .ok reply =>
    if reply.code = 0 then .ok reply.output
    else .error (.failure (.stage ⟨stage, command, some reply.code, .bytes reply.output⟩))

/-- A dry run launches nothing. -/
def stageEvents (isDryRun : Bool) (command : List String) (environment : Option Bindings)
    (answer : Except Fault Reply) : List Event :=
  if isDryRun then [] else [⟨.launch command environment, answer⟩]

/-- A dry run fails at nothing. -/
def stageResult (isDryRun : Bool) (stage : String) (command : List String)
    (answer : Except Fault Reply) : Except Fault Bytes :=
  if isDryRun then .ok [] else settled stage command answer

theorem shows_settle_iff {stage : String} {command : List String} {answer : Except Fault Reply}
    {vs : List Event} {r : Except Fault Bytes} :
    Shows (settle stage command answer) vs r ↔ vs = [] ∧ r = settled stage command answer := by
  rcases answer with fault | reply
  · cases fault <;> exact shows_failed_iff
  · by_cases hcode : reply.code = 0
    · simp only [settle, settled, debug, hcode, bne_self_eq_false, Bool.false_eq_true, ↓reduceIte,
        shows_log_bind_iff, shows_pure_iff]
    · simp [settle, settled, shows_fail_iff, hcode]

theorem shows_runStage_iff {stage : String} {command : List String} {isDryRun : Bool}
    {environment : Option Bindings} {vs : List Event} {r : Except Fault Bytes} :
    Shows (runStage stage command isDryRun environment) vs r ↔
      ∃ answer, vs = stageEvents isDryRun command environment answer ∧
        r = stageResult isDryRun stage command answer := by
  cases isDryRun with
  | true =>
    simp only [runStage, debug, shows_log_bind_iff, ↓reduceIte, shows_pure_iff, stageEvents,
      stageResult]
    exact ⟨fun h => ⟨.error .ended, h⟩, fun ⟨_, h⟩ => h⟩
  | false =>
    simp only [runStage, debug, shows_log_bind_iff, Bool.false_eq_true, ↓reduceIte, stageEvents,
      stageResult]
    simp only [shows_bind_iff, shows_attempt_iff, shows_launch_iff, shows_settle_iff]
    constructor
    · rintro (⟨_, ⟨_, ⟨⟩, -⟩, -⟩ | ⟨answer, _, _, rfl, ⟨_, ⟨⟩, rfl⟩, rfl, rfl⟩)
      exact ⟨answer, rfl, rfl⟩
    · rintro ⟨answer, rfl, rfl⟩
      exact .inr ⟨answer, _, [], rfl, ⟨answer, rfl, rfl⟩, rfl, rfl⟩

/-- A record that only real runs write makes no difference to what is shown. -/
theorem shows_bind_record_iff {α β : Type} {x : Job α} {isDryRun : Bool} {level : Log.Level}
    {message : String} {b : β} {vs : List Event} {r : Except Fault β} :
    Shows (x >>= fun _ =>
        if (!isDryRun) = true then log level message >>= fun _ => pure b else pure b) vs r ↔
      ∃ r', Shows x vs r' ∧ r = r'.map fun _ => b := by
  apply shows_bind_quiet_iff
  intro _ vs r
  cases isDryRun with
  | true => exact shows_pure_iff
  | false => exact shows_log_bind_iff.trans shows_pure_iff

/-- Stage one makes its file and emits the bitcode into it. -/
theorem shows_emitBitcode_iff {source driver : String} {args : Arguments} {workspace : String}
    {isDryRun : Bool} {vs : List Event} {r : Except Fault String} :
    Shows (emitBitcode source driver args workspace isDryRun) vs r ↔
      (∃ fault, (Step.createFile workspace (source ++ ".bc")).CanFail fault ∧
        vs = [⟨.createFile workspace (source ++ ".bc"), .error fault⟩] ∧ r = .error fault) ∨
      ∃ bitcode answer,
        vs = ⟨.createFile workspace (source ++ ".bc"), .ok bitcode⟩ ::
          stageEvents isDryRun (driver :: StageCommand.emitBitcode args bitcode) none answer ∧
        r = (stageResult isDryRun "emitting bitcode"
          (driver :: StageCommand.emitBitcode args bitcode) answer).map fun _ => bitcode := by
  simp only [emitBitcode, shows_createFile_bind_iff, shows_log_bind_iff, shows_bind_record_iff,
    shows_runStage_iff]
  apply or_congr_right
  constructor
  · rintro ⟨bitcode, _, rfl, _, ⟨answer, rfl, rfl⟩, rfl⟩
    exact ⟨bitcode, answer, rfl, rfl⟩
  · rintro ⟨bitcode, answer, rfl, rfl⟩
    exact ⟨bitcode, _, rfl, _, ⟨answer, rfl, rfl⟩, rfl⟩

/-- Stage two makes its file, called after the one of stage one, and has the optimizer write to it. -/
theorem shows_schedulePasses_iff {source : String} {c : Config} {bitcode workspace : String}
    {isDryRun : Bool} {vs : List Event} {r : Except Fault String} :
    Shows (schedulePasses source c bitcode workspace isDryRun) vs r ↔
      (∃ fault, (Step.createFile workspace (Path.stem bitcode ++ ".opt.bc")).CanFail fault ∧
        vs = [⟨.createFile workspace (Path.stem bitcode ++ ".opt.bc"), .error fault⟩] ∧
        r = .error fault) ∨
      ∃ optimized own answer,
        vs = ⟨.createFile workspace (Path.stem bitcode ++ ".opt.bc"), .ok optimized⟩ ::
          stageEvents isDryRun
            (c.optimizer :: StageCommand.schedulePasses c.optimizerArguments bitcode optimized)
            (some (optimizerEnvironment own c)) answer ∧
        r = (stageResult isDryRun "running opt"
          (c.optimizer :: StageCommand.schedulePasses c.optimizerArguments bitcode optimized)
          answer).map fun _ => optimized := by
  simp only [schedulePasses, debug, shows_createFile_bind_iff, shows_log_bind_iff,
    shows_environment_bind_iff, shows_bind_record_iff, shows_runStage_iff]
  apply or_congr_right
  constructor
  · rintro ⟨optimized, _, rfl, own, _, ⟨answer, rfl, rfl⟩, rfl⟩
    exact ⟨optimized, own, answer, rfl, rfl⟩
  · rintro ⟨optimized, own, answer, rfl, rfl⟩
    exact ⟨optimized, _, rfl, own, _, ⟨answer, rfl, rfl⟩, rfl⟩

/-- Stage three refuses arguments that name no object file, and builds that file otherwise. -/
theorem shows_buildBitcode_iff {driver bitcode : String} {args : Arguments} {isDryRun : Bool}
    {vs : List Event} {r : Except Fault String} :
    Shows (buildBitcode driver bitcode args isDryRun) vs r ↔
      ((StageCommand.buildBitcode args bitcode).valueOf StageCommand.outputFlag = "" ∧
        vs = [] ∧ r = .error (.failure .missingOutput)) ∨
      (StageCommand.buildBitcode args bitcode).valueOf StageCommand.outputFlag ≠ "" ∧
      ∃ answer,
        vs = stageEvents isDryRun (driver :: StageCommand.buildBitcode args bitcode) none answer ∧
        r = (stageResult isDryRun "building bitcode"
          (driver :: StageCommand.buildBitcode args bitcode) answer).map fun _ =>
            (StageCommand.buildBitcode args bitcode).valueOf StageCommand.outputFlag := by
  by_cases hobject : (StageCommand.buildBitcode args bitcode).valueOf StageCommand.outputFlag = ""
  · simp only [buildBitcode, hobject, ↓reduceIte, shows_fail_iff, true_and, ne_eq, not_true_eq_false,
      false_and, or_false]
  · simp only [buildBitcode, debug, hobject, ↓reduceIte, shows_log_bind_iff, shows_bind_record_iff,
      shows_runStage_iff, ne_eq, not_false_eq_true, false_and, true_and, false_or]
    constructor
    · rintro ⟨_, ⟨answer, rfl, rfl⟩, rfl⟩
      exact ⟨answer, rfl, rfl⟩
    · rintro ⟨answer, rfl, rfl⟩
      exact ⟨_, ⟨answer, rfl, rfl⟩, rfl⟩

theorem shows_sourceName_iff {args : Arguments} {vs : List Event} {r : Except Fault String} :
    Shows (sourceName args) vs r ↔ vs = [] ∧ r = .ok (fileName args) := by
  simp only [sourceName]
  split <;> exact shows_log_bind_iff.trans shows_pure_iff

/-- A compile step shows its workspace around the stages, and nothing else. -/
theorem shows_compile_iff {c : Config} {driver : String} {args : Arguments} {vs : List Event}
    {r : Except Fault String} :
    Shows (compile c driver args) vs r ↔
      (∃ fault, Step.makeWorkspace.CanFail fault ∧
        vs = [⟨.makeWorkspace, .error fault⟩] ∧ r = .error fault) ∨
      ∃ path vs', Shows (stages c driver (fileName args) args path) vs' r ∧
        vs = ⟨.makeWorkspace, .ok path⟩ ::
          (vs' ++ [⟨.releaseWorkspace c.retainsWorkspace path, .ok ()⟩]) := by
  simp only [compile, debug, shows_log_bind_iff]
  rw [shows_quiet_bind_iff (P := (· = fileName args)), ← shows_withWorkspace_iff]
  · simp only [exists_eq_left]
    refine (shows_bind_quiet_iff (g := id) ?_).trans ?_
    · exact fun object vs r => shows_log_bind_iff.trans shows_pure_iff
    constructor
    · rintro ⟨fault | object, h, rfl⟩ <;> exact h
    · exact fun h => ⟨r, h, by cases r <;> rfl⟩
  · intro vs r
    rw [shows_sourceName_iff]
    exact and_congr_right fun _ => ⟨fun h => ⟨_, rfl, h⟩, fun ⟨_, hname, h⟩ => hname ▸ h⟩

/-- A compile step succeeds with the exit code zero. -/
theorem shows_work_iff_of_compile {c : Config} {driver : String} {args : Arguments}
    (hcompile : args.has SourceFile.compileFlag = true) {vs : List Event} {r : Except Fault Int} :
    Shows (work c driver args) vs r ↔
      ∃ r', Shows (compile c driver args) vs r' ∧ r = r'.map fun _ => 0 := by
  simp only [work, hcompile, Bool.not_true, Bool.false_eq_true, ↓reduceIte]
  exact shows_bind_quiet_iff fun _ _ _ => shows_pure_iff

end BitcodeWrapper.Pipeline
