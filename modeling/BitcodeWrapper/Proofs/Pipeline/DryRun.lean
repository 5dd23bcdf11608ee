import BitcodeWrapper.Proofs.Pipeline.Modes
import BitcodeWrapper.Proofs.Pipeline.ObjectFile
import BitcodeWrapper.Proofs.Pipeline.Progress

/-! Dry runs and runs that pass their arguments through. Both launch the driver once on the arguments given
and come to the same exit code, but a dry run launches nothing if its third stage finds no object file. -/
namespace BitcodeWrapper.Pipeline
open BitcodeWrapper.Action Job Workspace

variable {runner : Runner} {c : Config} {invokedAs driver stage : String} {args : Arguments}
  {es vs : List Event} {answer : Except Fault Reply} {h h₁ : Host}

/-- Nothing but a launch is refused. -/
def MakesFiles (es : List Event) : Prop :=
  ∀ s fault, (⟨s, .error fault⟩ : Event) ∈ es →
    ∃ command environment, s = .launch command environment

theorem OnlyLaunchesRefused.makesFiles (h : OnlyLaunchesRefused es) : MakesFiles es := by
  intro s fault hmem
  obtain ⟨command, environment, _, hs, -⟩ := h s fault hmem
  exact ⟨command, environment, hs⟩

/-- Stage three finds an object file to build, wherever the bitcode is. -/
def KeepsObject (args : Arguments) : Prop :=
  ∀ bitcode, Path.isAbsolute bitcode = true → objectFile args bitcode ≠ ""

theorem keepsObject_iff {bitcode : String} (habsolute : Path.isAbsolute bitcode = true) :
    KeepsObject args ↔ objectFile args bitcode ≠ "" := by
  refine ⟨fun hkeeps => hkeeps bitcode habsolute, fun hobject bitcode' habsolute' => ?_⟩
  rwa [objectFile_eq_of_isAbsolute habsolute' habsolute]

/-- The driver is launched once, on the arguments given and in the environment that is there, and the
result is that of passing the arguments through to a runner which answers the same. -/
def ForwardsOnce (driver : String) (args : Arguments) (calls : List Call)
    (result : Except Fault Int) : Prop :=
  ∃ answer, calls = [⟨driver :: args, none, answer⟩] ∧
    ∀ (runner : Runner) (h : Host),
      (∀ h, (outcome (runner (driver :: args) none) h).1 = answer) →
        (reported (outcome (passThrough runner driver args) h)).1 = result

/-- What passing arguments through makes of the answer to the driver. -/
def forwarded : Except Fault Reply → Except Fault Int
  | .error (.os _) => .ok internalExitCode
  | .error fault => .error fault
  | .ok reply => .ok (exitCodeFor (some reply.code))

theorem forwarded_of_shows {r : Except Fault Int} (h : Shows (forward driver args) vs r) :
    ∃ answer, vs = [⟨.launch (driver :: args) none, answer⟩] ∧ r = forwarded answer := by
  simp only [forward, Job.debug, shows_log_bind_iff] at h
  simp only [shows_bind_iff, shows_attempt_iff, shows_launch_iff] at h
  obtain ⟨_, ⟨_, ⟨⟩, -⟩, -⟩ | ⟨answer, _, vs, rfl, ⟨_, ⟨⟩, rfl⟩, hrest⟩ := h
  suffices hend : vs = [] ∧ r = forwarded answer by
    obtain ⟨rfl, rfl⟩ := hend
    exact ⟨answer, rfl, rfl⟩
  rcases answer with (cause | e | _ | _ | _) | reply
  · exact shows_failed_iff.mp hrest
  · exact shows_pure_iff.mp (shows_log_bind_iff.mp hrest)
  · exact shows_failed_iff.mp hrest
  · exact shows_failed_iff.mp hrest
  · exact shows_failed_iff.mp hrest
  · have hcode := shows_echo_bind_iff.mp hrest
    split at hcode
    · exact shows_pure_iff.mp (shows_log_bind_iff.mp hcode)
    · exact shows_pure_iff.mp hcode

/-- A stage and a run that passes its arguments through come to the same exit code. -/
theorem fst_reported_forwarded (answer : Except Fault Reply) (stage : String) (command : List String)
    (object : String) (h : Host) :
    (reported (forwarded answer, h)).1 =
      compileCode ((settled stage command answer).map fun _ => object) := by
  rcases answer with (cause | e | _ | _ | _) | reply
  any_goals rfl
  by_cases hcode : reply.code = 0
  · simp only [settled, forwarded, hcode, ↓reduceIte]
    rfl
  · simp only [settled, if_neg hcode]
    exact congrArg Except.ok (exitCode_of_exited hcode).symm

/-- Passing arguments through depends on the answer to the driver only. -/
theorem fst_reported_passThrough
    (hanswer : ∀ h, (outcome (runner (driver :: args) none) h).1 = answer) (h : Host)
    (stage : String) (command : List String) (object : String) :
    (reported (outcome (passThrough runner driver args) h)).1 =
      compileCode ((settled stage command answer).map fun _ => object) := by
  obtain ⟨answer', hvisible, hresult⟩ :=
    forwarded_of_shows (follows_events runner (forward driver args) h).shows
  have hmem : ⟨driver :: args, none, answer'⟩ ∈ calls ((forward driver args).events runner h) := by
    rw [← calls_visible, hvisible]
    exact List.mem_cons_self
  obtain ⟨h', hanswer'⟩ := (passes_history runner (forward driver args) h).answer_of_mem_calls hmem
  obtain rfl : answer = answer' := (hanswer h').symm.trans hanswer'
  rw [passThrough, ← Prod.eta (outcome ((forward driver args).run runner) h), hresult]
  exact fst_reported_forwarded answer stage command object _

/-- A dry run that makes its files comes to its launch if there is an object file, and else gives up. -/
theorem cases_of_dry_dispatch (hcompile : args.has SourceFile.compileFlag = true)
    (hdry : c.isDryRun = true)
    (hlocated : outcome (locateDriver c invokedAs args) h = (.ok driver, h₁))
    (hmade : MakesFiles ((work c driver args).events runner h₁)) :
    (KeepsObject args ∧
      ForwardsOnce driver args (calls ((work c driver args).events runner h₁))
        (outcome (dispatch runner c invokedAs args) h).1) ∨
    ¬ KeepsObject args ∧ calls ((work c driver args).events runner h₁) = [] ∧
      (outcome (dispatch runner c invokedAs args) h).1 = .ok internalExitCode := by
  have hp := passes_history runner (work c driver args) h₁
  obtain ⟨r, hfollows, hresult⟩ :=
    follows_work_of_compile hcompile (follows_events runner (work c driver args) h₁)
  have hcode : (outcome (dispatch runner c invokedAs args) h).1 = compileCode r := by
    rw [outcome_dispatch_of_located hlocated,
      ← Prod.eta (outcome ((work c driver args).run runner) h₁), hresult, fst_reported_map]
  rw [hcode]
  obtain ⟨front, back, r₁, hes, hannounces, hend, hforwards⟩ := follows_compile_of_dry hdry hfollows
  have hcalls : calls ((work c driver args).events runner h₁) = calls back := by
    rw [hes, calls_append, hannounces.calls_eq_nil, List.nil_append]
  rw [hcalls]
  cases hend with
  | refused hmem hcall few =>
    obtain ⟨command, environment, rfl⟩ := hmade _ _ hmem
    exact nomatch hcall
  | @unnamed bitcode optimized hfiles hobject =>
    have habsolute : Path.isAbsolute optimized = true :=
      hp.isAbsolute_of_mem_files (hfiles ▸ by simp)
    cases hforwards with
    | stopped _ hnone _ => exact .inr ⟨fun hkeeps => hkeeps optimized habsolute hobject, hnone, rfl⟩
  | @built bitcode optimized hfiles hobject =>
    have habsolute : Path.isAbsolute optimized = true :=
      hp.isAbsolute_of_mem_files (hfiles ▸ by simp)
    cases hforwards with
    | @launched _ answer _ honce _ =>
      refine .inl ⟨(keepsObject_iff habsolute).mpr hobject, answer, honce, ?_⟩
      exact fun runner h hanswer => fst_reported_passThrough hanswer h _ _ _

/-- A dry run launches the driver on the arguments given, with the exit code of passing them through,
exactly if the command line of stage three names an object file. Otherwise it launches nothing. -/
theorem dry_run_forwards_iff (hcompile : args.has SourceFile.compileFlag = true)
    (hdry : c.isDryRun = true)
    (hlocated : outcome (locateDriver c invokedAs args) h = (.ok driver, h₁))
    (hmade : MakesFiles ((work c driver args).events runner h₁)) :
    (ForwardsOnce driver args (calls ((work c driver args).events runner h₁))
        (outcome (dispatch runner c invokedAs args) h).1 ↔ KeepsObject args) ∧
      (¬ KeepsObject args → calls ((work c driver args).events runner h₁) = [] ∧
        (outcome (dispatch runner c invokedAs args) h).1 = .ok internalExitCode) ∧
      (outcome (dispatch runner c invokedAs args) h).2.launches.map (·.command) =
        h.launches.map (·.command) ++
          (calls ((work c driver args).events runner h₁)).map (·.command) := by
  have hlaunches : (outcome (dispatch runner c invokedAs args) h).2.launches.map (·.command) =
      h.launches.map (·.command) ++
        (calls ((work c driver args).events runner h₁)).map (·.command) := by
    have hlocate := recordsTo_of_locateDriver c invokedAs args h
    rw [hlocated] at hlocate
    rw [outcome_dispatch_of_located hlocated, (recordsTo_reported _).launches_eq,
      (passes_history runner (work c driver args) h₁).launches_eq, hlocate.launches_eq]
    rfl
  obtain ⟨hkeeps, hforwards⟩ | ⟨hmisses, hnone, hcode⟩ :=
    cases_of_dry_dispatch hcompile hdry hlocated hmade
  · exact ⟨iff_of_true hforwards hkeeps, fun hmisses => (hmisses hkeeps).elim, hlaunches⟩
  · refine ⟨iff_of_false ?_ hmisses, fun _ => ⟨hnone, hcode⟩, hlaunches⟩
    rintro ⟨answer, honce, -⟩
    exact nomatch hnone.symm.trans honce

def oneDriverDryConfig : Config := { oneDriverConfig with isDryRun := true }

theorem makesFiles_oneDriver (hsource : fileName args = "a.c")
    (hcompile : args.has SourceFile.compileFlag = true) :
    MakesFiles ((work oneDriverDryConfig "/bin/clang" args).events succeeding oneDriver) :=
  (onlyLaunchesRefused_of_isReady (hsource ▸ isReady_oneDriver) isDetached_succeeding
    hcompile).makesFiles

/-- The hypotheses hold of a command line that names its output. -/
theorem dry_run_forwards_succeeding :
    simpleArguments.has SourceFile.compileFlag = true ∧ oneDriverDryConfig.isDryRun = true ∧
      MakesFiles
        ((work oneDriverDryConfig "/bin/clang" simpleArguments).events succeeding oneDriver) ∧
      ForwardsOnce "/bin/clang" simpleArguments
        (calls ((work oneDriverDryConfig "/bin/clang" simpleArguments).events succeeding oneDriver))
        (outcome (dispatch succeeding oneDriverDryConfig "conjunct" simpleArguments) oneDriver).1 := by
  have hcompile : simpleArguments.has SourceFile.compileFlag = true := rfl
  have hsource : fileName simpleArguments = "a.c" := by decide +kernel
  have hmade := makesFiles_oneDriver hsource hcompile
  have hroot : Path.isAbsolute "/" = true := by decide
  have hkeeps : KeepsObject simpleArguments := (keepsObject_iff hroot).mpr (by decide)
  exact ⟨hcompile, rfl, hmade,
    (dry_run_forwards_iff hcompile rfl outcome_locateDriver_oneDriver hmade).1.mpr hkeeps⟩

/-- A command line that leaves the name of its output to the driver ends a dry run before its launch, and
with another exit code than that of passing it through. -/
theorem dry_run_launches_nothing_unnamed :
    "-c" ∈ ["-c", "a.c"] ∧ oneDriverDryConfig.isDryRun = true ∧
      MakesFiles ((work oneDriverDryConfig "/bin/clang" ["-c", "a.c"]).events succeeding oneDriver) ∧
      calls ((work oneDriverDryConfig "/bin/clang" ["-c", "a.c"]).events succeeding oneDriver) = [] ∧
      (outcome (dispatch succeeding oneDriverDryConfig "conjunct" ["-c", "a.c"]) oneDriver).1 =
        .ok 1 ∧
      (reported (outcome (passThrough succeeding "/bin/clang" ["-c", "a.c"]) oneDriver)).1 =
        .ok 0 := by
  have hsource : fileName ["-c", "a.c"] = "a.c" := by decide +kernel
  have hmade := makesFiles_oneDriver hsource (by decide)
  have hroot : Path.isAbsolute "/" = true := by decide
  have hmisses : ¬ KeepsObject ["-c", "a.c"] := fun hkeeps => hkeeps "/" hroot (by decide)
  obtain ⟨hkeeps, -⟩ | ⟨-, hnone, hcode⟩ :=
    cases_of_dry_dispatch (by decide) rfl outcome_locateDriver_oneDriver hmade
  · exact (hmisses hkeeps).elim
  · exact ⟨by decide, rfl, hmade, hnone, hcode, rfl⟩

end BitcodeWrapper.Pipeline
