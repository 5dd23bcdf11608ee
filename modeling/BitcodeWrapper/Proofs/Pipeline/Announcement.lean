import BitcodeWrapper.Proofs.Pipeline.Course
import BitcodeWrapper.Proofs.Pipeline.ExitCode

/-! The stages that a run announces. A real run launches the command of a stage right after it has
announced it; a dry run leaves a note there instead, and else does the same. -/
namespace BitcodeWrapper.Pipeline
open Job

variable {isDryRun : Bool} {c : Config} {driver source path stage : String} {args : Arguments}
  {command : List String} {environment : Option Bindings} {es es' : List Event}
  {todo todo' : List (String × List String)} {r : Except Fault String}

/-- The record of a stage and its command. -/
def announcement (stage : String) (command : List String) : Event :=
  ⟨.log .debug (stage ++ ": " ++ Text.quotedList command), .ok ()⟩

def dryRunText : String := "Dry-run: not running above command"

/-- The record that stands in a dry run where a real one launches a command. -/
def dryRunNote : Event := ⟨.log .debug dryRunText, .ok ()⟩

/-- What comes right after the announcement of a stage. -/
def ActsOn (isDryRun : Bool) (command : List String) (e : Event) : Prop :=
  if isDryRun then e = dryRunNote
  else ∃ environment answer, e = ⟨.launch command environment, answer⟩

/-- Neither a launch nor the note of a dry run. -/
structure IsAside (e : Event) : Prop where
  noCall : e.call? = none
  noNote : e ≠ dryRunNote

def isDebug (e : Event) : Bool :=
  match e.step with
  | .log .debug _ => true
  | _ => false

/-- The stages that events go through, in order. Nothing is launched and no note is left but right after
the announcement of its stage. -/
inductive Announces (isDryRun : Bool) : List Event → List (String × List String) → Prop
  | nil : Announces isDryRun [] []
  | aside {e : Event} {es : List Event} {todo : List (String × List String)} (h : IsAside e)
      (rest : Announces isDryRun es todo) : Announces isDryRun (e :: es) todo
  | stage {stage : String} {command : List String} {e : Event} {es : List Event}
      {todo : List (String × List String)} (h : ActsOn isDryRun command e)
      (rest : Announces isDryRun es todo) :
      Announces isDryRun (announcement stage command :: e :: es) ((stage, command) :: todo)

namespace Announces

theorem append (h : Announces isDryRun es todo) (h' : Announces isDryRun es' todo') :
    Announces isDryRun (es ++ es') (todo ++ todo') := by
  induction h with
  | nil => exact h'
  | aside haside rest ih => exact .aside haside ih
  | stage hacts rest ih => exact .stage hacts ih

theorem of_asides (h : ∀ e ∈ es, IsAside e) : Announces isDryRun es [] := by
  induction es with
  | nil => exact .nil
  | cons e es ih =>
    obtain ⟨hfirst, hrest⟩ := List.forall_mem_cons.mp h
    exact .aside hfirst (ih hrest)

/-- The stages of a dry run launch nothing. -/
theorem calls_eq_nil (h : Announces true es todo) : calls es = [] := by
  induction h with
  | nil => rfl
  | aside haside rest ih => rw [calls_cons, haside.noCall, ih]; rfl
  | stage hacts rest ih =>
    obtain rfl : _ = dryRunNote := hacts
    rw [calls_cons, calls_cons, ih]
    rfl

/-- Those of a real run launch their commands. -/
theorem commands_eq (h : Announces false es todo) :
    (calls es).map (·.command) = todo.map (·.2) := by
  induction h with
  | nil => rfl
  | aside haside rest ih => rw [calls_cons, haside.noCall]; exact ih
  | stage hacts rest ih =>
    obtain ⟨environment, answer, rfl⟩ := hacts
    rw [calls_cons, calls_cons, List.map_cons, ← ih]
    rfl

end Announces

/-- The note is told from texts that begin otherwise. -/
theorem append_ne_dryRunText {start : String} (h : start.toList.head?.any (· != 'D') = true)
    (rest : String) : start ++ rest ≠ dryRunText := by
  intro heq
  have hhead := congrArg (fun text => text.toList.head?) heq
  cases hstart : start.toList.head? with
  | none =>
    rw [hstart] at h
    exact nomatch h
  | some first =>
    have hnote : dryRunText.toList.head? = some 'D' := by decide
    simp only [String.toList_append, List.head?_append, hstart, Option.some_or, hnote,
      Option.some.injEq] at hhead
    simp [hstart, hhead] at h

/-- Only debug records can be taken for the note of a dry run. -/
theorem IsAside.of_not_debug {e : Event} (hcall : e.call? = none) (hdebug : isDebug e = false) :
    IsAside e := by
  refine ⟨hcall, ?_⟩
  rintro rfl
  exact absurd hdebug (by decide)

theorem IsAside.debug {message : String} (h : message ≠ dryRunText) :
    IsAside ⟨.log .debug message, .ok ()⟩ := by
  refine ⟨rfl, fun heq => h ?_⟩
  have hstep : Step.log .debug message = Step.log .debug dryRunText := congrArg Event.step heq
  injection hstep

theorem files_stageEvents (isDryRun : Bool) (command : List String) (environment : Option Bindings)
    (answer : Except Fault Reply) : files (stageEvents isDryRun command environment answer) = [] := by
  cases isDryRun <;> rfl

/-- What is recorded of an answer is told from a note by the name of its stage. -/
theorem isAside_of_follows_settle {answer : Except Fault Reply} {r : Except Fault Bytes}
    (hstage : stage.toList.head?.any (· != 'D') = true)
    (h : Follows (settle stage command answer) es r) : ∀ e ∈ es, IsAside e := by
  rcases answer with fault | reply
  · have hes : es = [] := by cases fault <;> exact (follows_failed_iff.mp h).1
    exact hes ▸ List.forall_mem_nil _
  · by_cases hcode : reply.code = 0
    · simp only [settle, hcode, bne_self_eq_false, Bool.false_eq_true, ↓reduceIte, Job.debug,
        follows_log_bind_iff, follows_pure_iff] at h
      obtain ⟨_, rfl, rfl, -⟩ := h
      refine List.forall_mem_singleton.mpr (.debug ?_)
      rw [String.append_assoc]
      exact append_ne_dryRunText hstage _
    · rw [settle, if_pos (by simpa using hcode)] at h
      exact (follows_failed_iff.mp h).1 ▸ List.forall_mem_nil _

/-- A stage is announced, whatever comes of its command. -/
theorem announces_runStage {r : Except Fault Bytes}
    (hstage : stage.toList.head?.any (· != 'D') = true)
    (h : Follows (runStage stage command isDryRun environment) es r) :
    Announces isDryRun es [(stage, command)] := by
  cases isDryRun with
  | true =>
    simp only [runStage, Job.debug, follows_log_bind_iff, ↓reduceIte, follows_pure_iff] at h
    obtain ⟨_, rfl, _, rfl, rfl, -⟩ := h
    exact .stage rfl .nil
  | false =>
    simp only [runStage, Job.debug, follows_log_bind_iff, Bool.false_eq_true, ↓reduceIte] at h
    obtain ⟨es, rfl, h⟩ := h
    obtain ⟨_, hlaunch, -⟩ | ⟨answer, _, es, rfl, hlaunch, hsettle⟩ := follows_bind_iff.mp h
    · obtain ⟨_, ⟨⟩, -⟩ := follows_attempt_iff.mp hlaunch
    · obtain ⟨_, ⟨⟩, hlaunch⟩ := follows_attempt_iff.mp hlaunch
      obtain rfl := follows_launch_iff.mp hlaunch
      exact .stage ⟨environment, answer, rfl⟩ (.of_asides (isAside_of_follows_settle hstage hsettle))

/-- What comes after a stage is no stage of its own if it neither launches anything nor leaves a note. -/
theorem announces_runStage_bind {α : Type} {f : Bytes → Job α} {r : Except Fault α}
    (hstage : stage.toList.head?.any (· != 'D') = true)
    (hasides : ∀ output es r, Follows (f output) es r → ∀ e ∈ es, IsAside e)
    (h : Follows (runStage stage command isDryRun environment >>= f) es r) :
    Announces isDryRun es [(stage, command)] := by
  obtain ⟨fault, hrun, -⟩ | ⟨output, es, es', rfl, hrun, hrest⟩ := follows_bind_iff.mp h
  · exact announces_runStage hstage hrun
  · exact (announces_runStage hstage hrun).append (.of_asides (hasides output es' r hrest))

/-- The record that only real runs write at the end of a stage goes with it. -/
theorem announces_runStage_record {α : Type} {a : α} {message : String} {r : Except Fault α}
    (hstage : stage.toList.head?.any (· != 'D') = true)
    (h : Follows (runStage stage command isDryRun environment >>= fun _ =>
      if (!isDryRun) = true then log .info message >>= fun _ => pure a else pure a) es r) :
    Announces isDryRun es [(stage, command)] ∧ files es = [] := by
  constructor
  · refine announces_runStage_bind hstage (fun _ es r hrecord => ?_) h
    split at hrecord
    · obtain ⟨_, rfl, hpure⟩ := follows_log_bind_iff.mp hrecord
      obtain ⟨rfl, -⟩ := follows_pure_iff.mp hpure
      exact List.forall_mem_singleton.mpr (.of_not_debug rfl rfl)
    · obtain ⟨rfl, -⟩ := follows_pure_iff.mp hrecord
      exact List.forall_mem_nil _
  · obtain ⟨_, hrun, -⟩ := shows_bind_record_iff.mp h.shows
    obtain ⟨answer, hshown, -⟩ := shows_runStage_iff.mp hrun
    rw [← files_visible, hshown, files_stageEvents]

theorem announces_emitBitcode (h : Follows (emitBitcode source driver args path isDryRun) es r) :
    Announces isDryRun es ((files es).map fun bitcode =>
      ("emitting bitcode", driver :: StageCommand.emitBitcode args bitcode)) := by
  simp only [emitBitcode, follows_createFile_bind_iff, follows_log_bind_iff] at h
  obtain ⟨fault, -, rfl, -⟩ | ⟨bitcode, _, rfl, es, rfl, hstage⟩ := h
  · exact .aside (.of_not_debug rfl rfl) .nil
  · obtain ⟨hannounces, hfiles⟩ := announces_runStage_record (by decide) hstage
    rw [files_cons, files_cons, hfiles]
    exact .aside (.of_not_debug rfl rfl) (.aside (.of_not_debug rfl rfl) hannounces)

theorem announces_schedulePasses {bitcode : String}
    (h : Follows (schedulePasses source c bitcode path isDryRun) es r) :
    Announces isDryRun es ((files es).map fun optimized =>
      ("running opt",
        c.optimizer :: StageCommand.schedulePasses c.optimizerArguments bitcode optimized)) := by
  simp only [schedulePasses, Job.debug, follows_createFile_bind_iff, follows_log_bind_iff,
    follows_environment_bind_iff] at h
  obtain ⟨fault, -, rfl, -⟩ | ⟨optimized, _, rfl, _, rfl, own, es, rfl, hstage⟩ := h
  · exact .aside (.of_not_debug rfl rfl) .nil
  · obtain ⟨hannounces, hfiles⟩ := announces_runStage_record (by decide) hstage
    rw [files_cons, files_cons, files_cons, hfiles]
    refine .aside (.of_not_debug rfl rfl)
      (.aside (.debug ?_) (.aside (.of_not_debug rfl rfl) hannounces))
    simp only [String.append_assoc]
    exact append_ne_dryRunText (by decide) _

theorem announces_buildBitcode {optimized : String}
    (h : Follows (buildBitcode driver optimized args isDryRun) es r) :
    Announces isDryRun es (if objectFile args optimized = "" then []
      else [("building bitcode", driver :: StageCommand.buildBitcode args optimized)]) := by
  rw [buildBitcode] at h
  dsimp only at h
  split at h
  · obtain ⟨rfl, -⟩ := follows_failed_iff.mp h
    rw [objectFile, if_pos ‹_›]
    exact .nil
  · obtain ⟨es, rfl, hstage⟩ := follows_log_bind_iff.mp h
    obtain ⟨hannounces, -⟩ := announces_runStage_record (by decide) hstage
    rw [objectFile, if_neg ‹_›]
    refine .aside (.debug ?_) hannounces
    rw [String.append_assoc]
    exact append_ne_dryRunText (by decide) _

end BitcodeWrapper.Pipeline
