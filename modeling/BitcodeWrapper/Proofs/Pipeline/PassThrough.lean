import BitcodeWrapper.Proofs.Pipeline.DryRun

/-! Arguments passed through. The driver is launched once, on the arguments as they are, and what it prints
and how it exits is what the run prints and how it exits. -/
namespace BitcodeWrapper.Pipeline
open BitcodeWrapper.Action Job

variable {runner : Runner} {c : Config} {invokedAs driver : String} {args : Arguments}
  {answer : Except Fault Reply} {h h₁ after : Host}

/-- What is handed on of the answer to a command. -/
def printed : Except Fault Reply → Bytes
  | .ok reply => reply.output
  | .error _ => []

/-- The machine that the driver is launched on. -/
def launching (h : Host) : Host := h.accept (h.ownRecord .debug "Running original clang...")

/-- After the launch the output is handed on, and at most a record is written. -/
theorem outcome_passThrough
    (hlaunch : (Step.launch (driver :: args) none).outcome runner (launching h) = (answer, after)) :
    ∃ ended, Host.RecordsTo { after with output := after.output ++ printed answer } ended ∧
      outcome (passThrough runner driver args) h = (forwarded answer, ended) := by
  have hforward : outcome (passThrough runner driver args) h = _ :=
    (outcome_run_step runner (.log .debug "Running original clang...") _ h).trans
      (outcome_run_step runner (.launch (driver :: args) none) _ (launching h))
  rw [hforward, hlaunch]
  rcases answer with (cause | e | _ | _ | _) | reply
  any_goals
    refine ⟨after, ?_, rfl⟩
    rw [printed, List.append_nil]
    exact .refl
  · refine ⟨_, ?_, rfl⟩
    rw [printed, List.append_nil]
    exact .single after _
  · change ∃ ended, _ ∧ outcome (Job.run runner (if reply.code != 0 then _ else _)) _ = _
    split
    · exact ⟨_, .single _ _, rfl⟩
    · exact ⟨_, .refl, rfl⟩

/-- Nothing else is launched. -/
theorem calls_forward
    (hlaunch : (Step.launch (driver :: args) none).outcome runner (launching h) = (answer, after)) :
    calls ((forward driver args).events runner h) = [⟨driver :: args, none, answer⟩] := by
  obtain ⟨answer', hvisible, -⟩ :=
    forwarded_of_shows (follows_events runner (forward driver args) h).shows
  have hcalls : calls ((forward driver args).events runner h) =
      [⟨driver :: args, none, answer'⟩] := by
    rw [← calls_visible, hvisible]
    rfl
  have hmem : (⟨driver :: args, none, answer⟩ : Call) ∈
      calls ((forward driver args).events runner h) := by
    refine List.mem_filterMap.mpr ⟨⟨.launch (driver :: args) none, answer⟩, ?_, rfl⟩
    have hanswer : ((Step.launch (driver :: args) none).outcome runner (launching h)).1 = answer :=
      congrArg Prod.fst hlaunch
    rw [← hanswer]
    exact List.mem_cons_of_mem _ List.mem_cons_self
  rw [hcalls, List.mem_singleton] at hmem
  rw [hcalls, hmem]

/-- The exit code of a run that launched nothing but the driver. -/
inductive Answered (answer : Except Fault Reply) : Int → Prop
  | exited {code : Int} {output : Bytes} (exits : answer = .ok ⟨code, output⟩) :
      Answered answer (exitCodeFor (some code))
  | refused {e : OsError} (refusal : answer = .error (.os e)) : Answered answer internalExitCode

/-- Only an exit code of zero is passed on as zero. -/
theorem Answered.eq_zero_iff {code : Int} (ha : Answered answer code) :
    code = 0 ↔ ∃ output, answer = .ok ⟨0, output⟩ := by
  cases ha with
  | @exited code output exits =>
    constructor
    · intro hzero
      have hcode : code = 0 := not_not.mp fun hne => exitCodeFor_ne_zero hne hzero
      exact ⟨output, hcode ▸ exits⟩
    · rintro ⟨output', hanswer⟩
      cases exits.symm.trans hanswer
      rfl
  | refused refusal =>
    refine iff_of_false (by decide) ?_
    rintro ⟨output, hanswer⟩
    exact nomatch refusal.symm.trans hanswer

theorem answered_of_forwarded (hanswer : ∀ fault, answer = .error fault → ∃ e, fault = .os e) :
    ∃ code, forwarded answer = .ok code ∧ Answered answer code := by
  rcases answer with fault | ⟨code, output⟩
  · obtain ⟨e, rfl⟩ := hanswer fault rfl
    exact ⟨internalExitCode, rfl, .refused rfl⟩
  · exact ⟨exitCodeFor (some code), rfl, .exited rfl⟩

/-- A run whose events come down to one launch between records. -/
structure LaunchesOnce (runner : Runner) (command : List String) (h : Host) (es : List Event)
    (before : Host) (answer : Except Fault Reply) (after ended : Host) : Prop where
  reached : Host.RecordsTo h before
  launched : (Step.launch command none).outcome runner before = (answer, after)
  once : calls es = [⟨command, none, answer⟩]
  withoutFiles : ∀ e ∈ es, IsRunning e.step
  noted : ended.launches = h.launches ++ [⟨command, none, before.files⟩]
  notPrinted : before.output = h.output
  handedOn : ended.output = after.output ++ printed answer

/-- The record that there is nothing to compile. -/
def notCompiling : String := "Not an object compilation step: using Clang instead"

theorem work_of_notMem (hcompile : SourceFile.compileFlag ∉ args) :
    work c driver args = (do
      Job.debug notCompiling
      forward driver args) := by
  have hflag : args.has SourceFile.compileFlag = false := by
    rw [Arguments.has_eq_decide (by decide), decide_eq_false hcompile]
  simp only [work, hflag, Bool.not_false, ↓reduceIte]
  rfl

/-- The work of a command line without the compile flag is one launch of the driver. -/
theorem launchesOnce_of_work (hcompile : SourceFile.compileFlag ∉ args) (c : Config)
    (runner : Runner) (driver : String) (h : Host) :
    ∃ before answer after ended,
      LaunchesOnce runner (driver :: args) h ((work c driver args).events runner h) before answer
        after ended ∧
      outcome ((work c driver args).run runner) h = (forwarded answer, ended) := by
  let before := launching (h.accept (h.ownRecord .debug notCompiling))
  have hreached : Host.RecordsTo h before := (Host.RecordsTo.single h _).accept _
  rcases hlaunch : (Step.launch (driver :: args) none).outcome runner before with ⟨answer, after⟩
  obtain ⟨ended, hrecords, hout⟩ := outcome_passThrough hlaunch
  have hafter : after.launches = before.launches ++ [⟨driver :: args, none, before.files⟩] := by
    rw [Step.outcome_launch] at hlaunch
    exact (congrArg (fun out => out.2.launches) hlaunch).symm
  refine ⟨before, answer, after, ended, ?_, ?_⟩
  · constructor
    · exact hreached
    · exact hlaunch
    · rw [work_of_notMem hcompile]
      exact calls_forward hlaunch
    · rw [work_of_notMem hcompile]
      refine (follows_events runner _ h).only (only_bind (only_ask trivial) fun _ => ?_)
      exact only_forward driver args
    · rw [hrecords.launches_eq, hafter, hreached.launches_eq]
    · exact hreached.output_eq
    · exact hrecords.output_eq
  · rw [work_of_notMem hcompile]
    exact (outcome_run_step runner (.log .debug notCompiling) _ h).trans hout

/-- Without the compile flag the driver is launched once, on the arguments given and in the environment that
is there. No workspace and no file is made, what the driver prints is printed, and its return code becomes
the exit code, which is zero exactly if that is. -/
theorem dispatch_passes_through (hcompile : SourceFile.compileFlag ∉ args)
    (hlocated : outcome (locateDriver c invokedAs args) h = (.ok driver, h₁))
    (hanswers : ∀ h fault, (outcome (runner (driver :: args) none) h).1 = .error fault →
      ∃ e, fault = .os e) :
    ∃ before answer after ended code,
      LaunchesOnce runner (driver :: args) h
        ((dispatchHistory runner c invokedAs args h).map (·.event)) before answer after ended ∧
      outcome (dispatch runner c invokedAs args) h = (.ok code, ended) ∧
      Answered answer code ∧ (code = 0 ↔ ∃ output, answer = .ok ⟨0, output⟩) := by
  obtain ⟨before, answer, after, ended, hlaunches, hout⟩ :=
    launchesOnce_of_work hcompile c runner driver h₁
  have hlocate := recordsTo_of_locateDriver c invokedAs args h
  rw [hlocated] at hlocate
  have hanswer : ∀ fault, answer = .error fault → ∃ e, fault = .os e := by
    intro fault hfault
    have hlaunched := hlaunches.launched
    rw [Step.outcome_launch] at hlaunched
    exact hanswers _ fault ((congrArg Prod.fst hlaunched).trans hfault)
  obtain ⟨code, hcode, hanswered⟩ := answered_of_forwarded hanswer
  have hevents : (dispatchHistory runner c invokedAs args h).map (·.event) =
      (work c driver args).events runner h₁ := by
    rw [dispatchHistory, hlocated]
    rfl
  refine ⟨before, answer, after, ended, code, ?_, ?_, hanswered, hanswered.eq_zero_iff⟩
  · rw [hevents]
    exact {
      hlaunches with
      reached := hlocate.trans hlaunches.reached
      noted := by rw [hlaunches.noted, hlocate.launches_eq]
      notPrinted := by rw [hlaunches.notPrinted, hlocate.output_eq] }
  · rw [outcome_dispatch_of_located hlocated, hout, hcode]
    rfl

/-- Every command has something to say and fails. -/
def complaining : Runner := fun _ _ => return ⟨3, [33]⟩

/-- The hypotheses hold of a link step that fails. -/
theorem dispatch_passes_through_complaining :
    SourceFile.compileFlag ∉ ["a.o"] ∧
      outcome (locateDriver oneDriverConfig "conjunct" ["a.o"]) oneDriver =
        (.ok "/bin/clang", oneDriver) ∧
      ∃ ended, outcome (dispatch complaining oneDriverConfig "conjunct" ["a.o"]) oneDriver =
          (.ok 3, ended) ∧ ended.output = [33] := by
  have hcompile : SourceFile.compileFlag ∉ ["a.o"] := by decide
  obtain ⟨before, answer, after, ended, code, hlaunches, hout, hanswered, -⟩ :=
    @dispatch_passes_through complaining _ _ _ _ _ _ hcompile outcome_locateDriver_oneDriver
      fun _ _ => nofun
  have hlaunched := hlaunches.launched
  rw [Step.outcome_launch] at hlaunched
  obtain ⟨rfl, rfl⟩ := Prod.mk.inj hlaunched
  have houtput : ended.output = [33] := by
    rw [hlaunches.handedOn, show _ = before.output from rfl, hlaunches.notPrinted]
    rfl
  cases hanswered with
  | exited exits =>
    cases exits
    exact ⟨hcompile, outcome_locateDriver_oneDriver, ended, hout, houtput⟩
  | refused refusal => exact nomatch refusal

end BitcodeWrapper.Pipeline
