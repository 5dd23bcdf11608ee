import BitcodeWrapper.Pipeline
import BitcodeWrapper.Proofs.Job.History
import BitcodeWrapper.Proofs.Text.Utf8

/-! What the error of a stage shows. The text of a refusal is printed as bytes and read back unchanged; what
a process printed is shown unchanged exactly if it is text. -/
namespace BitcodeWrapper.Pipeline
open BitcodeWrapper.Action Job Text.Utf8

variable {runner : Runner} {stage text : String} {command : List String} {environment : Option Bindings}
  {h h' : Host}

/-- The error of a stage whose command was refused with this text. -/
def unlaunched (stage : String) (command : List String) (text : String) : StageError :=
  ⟨stage, command, none, .bytes (encode text)⟩

/-- The error of a stage whose command failed with this reply. -/
def exited (stage : String) (command : List String) (reply : Reply) : StageError :=
  ⟨stage, command, some reply.code, .bytes reply.output⟩

/-- An error without a return code that shows a text as it is. -/
structure ShowsText (e : StageError) (stage : String) (command : List String) (text : String) : Prop where
  ofStage : e.stage = stage
  ofCommand : e.command = command
  output : e.output = .bytes (encode text)
  shown : e.output.shown = text
  message : e.message = stage ++ " failed: " ++ text
  returnCode : e.returnCode = none
  exitCode : e.exitCode = 1

/-- An error that shows what a process printed: as it is if it is text, and else with something put in the
place of what is not. -/
structure ShowsOutput (e : StageError) (stage : String) (command : List String) (reply : Reply) : Prop where
  ofStage : e.stage = stage
  ofCommand : e.command = command
  returnCode : e.returnCode = some reply.code
  output : e.output = .bytes reply.output
  message : e.message = stage ++ " failed: " ++ e.output.shown
  unchanged_iff : encode e.output.shown = reply.output ↔ IsWellFormed reply.output
  replaced : ¬ IsWellFormed reply.output → '\ufffd' ∈ e.output.shown.toList

theorem showsText_unlaunched (stage : String) (command : List String) (text : String) :
    ShowsText (unlaunched stage command text) stage command text := by
  have hshown : (unlaunched stage command text).output.shown = text := decodeLossy_encode text
  refine ⟨rfl, rfl, rfl, hshown, ?_, rfl, rfl⟩
  rw [StageError.message, hshown]
  rfl

theorem showsOutput_exited (stage : String) (command : List String) (reply : Reply) :
    ShowsOutput (exited stage command reply) stage command reply :=
  ⟨rfl, rfl, rfl, rfl, rfl, encode_decodeLossy_eq_iff, replacement_mem_decodeLossy⟩

/-- The machine that the command of a stage is launched on. -/
def announced (stage : String) (command : List String) (h : Host) : Host :=
  h.accept (h.ownRecord .debug (stage ++ ": " ++ Text.quotedList command))

/-- A stage that is not run dry launches its command, and then settles the answer. -/
theorem outcome_runStage (runner : Runner) (stage : String) (command : List String)
    (environment : Option Bindings) (h : Host) :
    outcome ((runStage stage command false environment).run runner) h =
      let out := outcome (runner.launch command environment) (announced stage command h)
      outcome ((settle stage command out.1).run runner) out.2 := by
  have hlaunched := outcome_run_step runner (.launch command environment)
    (fun answer => (attempt (ofExcept answer)).bind (settle stage command)) (announced stage command h)
  refine Eq.trans ?_ (hlaunched.trans ?_)
  · rfl
  · simp only [Step.outcome, Step.perform]
    cases (outcome (runner.launch command environment) (announced stage command h)).1 <;> rfl

/-- A command that is refused is told of in the words of the refusal. -/
theorem outcome_runStage_of_refused {e : OsError}
    (hlaunch : outcome (runner.launch command environment) (announced stage command h) = (.error (.os e), h')) :
    outcome ((runStage stage command false environment).run runner) h =
      (.error (.failure (.stage (unlaunched stage command e.message))), h') := by
  rw [outcome_runStage, hlaunch]
  rfl

/-- A command that fails is told of in the bytes that it printed. -/
theorem outcome_runStage_of_exited {reply : Reply} (hcode : reply.code ≠ 0)
    (hlaunch : outcome (runner.launch command environment) (announced stage command h) = (.ok reply, h')) :
    outcome ((runStage stage command false environment).run runner) h =
      (.error (.failure (.stage (exited stage command reply))), h') := by
  rw [outcome_runStage, hlaunch]
  simp only [settle, bne_iff_ne.mpr hcode, ↓reduceIte]
  rfl

/-- How a stage that is not run dry fails, by the answer to its command. -/
structure FailsAsTold (runner : Runner) (stage : String) (command : List String)
    (environment : Option Bindings) (h : Host) : Prop where
  refused : ∀ e h', outcome (runner.launch command environment) (announced stage command h) =
      (.error (.os e), h') →
    outcome ((runStage stage command false environment).run runner) h =
      (.error (.failure (.stage (unlaunched stage command e.message))), h')
  exited : ∀ reply h', reply.code ≠ 0 →
    outcome (runner.launch command environment) (announced stage command h) = (.ok reply, h') →
    outcome ((runStage stage command false environment).run runner) h =
      (.error (.failure (.stage (exited stage command reply))), h')

/-- The error of a refusal shows its text unchanged, whatever the text. The error of a process shows what the
process printed, and unchanged exactly if that is text. -/
theorem runStage_shows_output (stage : String) (command : List String) :
    (∀ text, ShowsText (unlaunched stage command text) stage command text) ∧
      (∀ reply, ShowsOutput (exited stage command reply) stage command reply) ∧
        ∀ runner environment h, FailsAsTold runner stage command environment h := by
  refine ⟨showsText_unlaunched stage command, showsOutput_exited stage command, ?_⟩
  exact fun runner environment h => ⟨fun _ _ => outcome_runStage_of_refused, fun _ _ => outcome_runStage_of_exited⟩

theorem runStage_shows_output_missing_driver :
    (outcome ((runStage "emitting bitcode" ["clang"] false none).run
        fun _ _ => throw (.os (.on .noSuchFile "clang"))) (.fresh ⟨[]⟩ [])).1 =
      .error (.failure (.stage (unlaunched "emitting bitcode" ["clang"]
        "[Errno 2] No such file or directory: 'clang'"))) := by
  obtain ⟨-, -, hfails⟩ := runStage_shows_output "emitting bitcode" ["clang"]
  exact congrArg Prod.fst ((hfails (fun _ _ => throw (.os (.on .noSuchFile "clang"))) none
    (.fresh ⟨[]⟩ [])).refused (.on .noSuchFile "clang") _ rfl)

end BitcodeWrapper.Pipeline
