import BitcodeWrapper.Proofs.Pipeline.Modes
import BitcodeWrapper.Proofs.Pipeline.Progress
import BitcodeWrapper.Proofs.Workspace.Alike

/-! What a dry run derives is what a real run executes: in a workspace of the same path both make the same
files, and announce the same stages with the same commands. -/
namespace BitcodeWrapper.Pipeline
open BitcodeWrapper.Action Job Workspace

variable {runner : Runner} {c : Config} {driver path : String} {args : Arguments}
  {dry real es : List Event} {rd rr r : Except Fault String} {h h' : Host} {ms : List Moment}

/-- Whether the files that a run asks for can be made, and which paths they get, is not changed by launches. -/
def LeavesPaths (ms : List Moment) : Prop :=
  ∀ m ∈ ms, m.event.call?.isSome → ∀ directory name answer,
    (⟨.createFile directory name, answer⟩ : Event) ∈ ms.map (·.event) →
      pathMade m.before directory name = pathMade m.after directory name

theorem LeavesPaths.mono {ms' : List Moment} (h : LeavesPaths ms') (hsub : ms ⊆ ms') :
    LeavesPaths ms :=
  fun m hm hcall directory name answer hmem =>
    h m (hsub hm) hcall directory name answer (List.map_subset _ hsub hmem)

/-- Then all requests for files are answered as on the first machine. -/
theorem answersAs_of_passes (hp : Passes runner h ms h')
    (hin : ∀ m ∈ ms, InWorkspace path m.event.step) (hleaves : LeavesPaths ms) :
    AnswersAs (pathMade h) (ms.map (·.event)) := by
  intro directory name answer hmem
  have hstep : ∀ m ∈ ms, m.event.step.outcome runner m.before = (m.event.answer, m.after) →
      pathMade h directory name = pathMade m.before directory name →
      pathMade h directory name = pathMade m.after directory name := by
    intro m hm hout hsame
    rw [hsame]
    by_cases hcall : m.event.call?.isSome = true
    · exact hleaves m hm hcall directory name answer hmem
    · exact pathMade_eq_of_sameWays
        (sameWays_of_outcome (hin m hm) hout fun hc => absurd hc hcall) directory name
  have hsame := (hp.keeps (I := fun k => pathMade h directory name = pathMade k directory name)
    hstep rfl).1
  obtain ⟨m, hm, hevent⟩ := List.mem_map.mp hmem
  have hout := hp.outcome_of_mem hm
  rw [hsame m hm]
  obtain ⟨before, event, after⟩ := m
  obtain rfl : event = _ := hevent
  exact congrArg (fun out => out.1.toOption) hout.symm

/-- In either mode the stages make their files before anything that only dry runs do. -/
theorem exists_ownStages (h : Follows (stages c driver (fileName args) args path) es r) :
    ∃ own rest r₁, es = own ++ rest ∧ Follows (ownStages c driver (fileName args) args path) own r₁ ∧
      files rest = [] ∧ (c.isDryRun = true → calls own = []) := by
  cases hmode : c.isDryRun with
  | true =>
    obtain ⟨own, rest, r₁, hes, hown, hforwards⟩ := ownStages_of_dry hmode h
    exact ⟨own, rest, r₁, hes, hown, hforwards.files_eq_nil, fun _ => calls_ownStages_of_dry hmode hown⟩
  | false =>
    exact ⟨es, [], r, (List.append_nil es).symm, ownStages_of_real hmode h, rfl, nofun⟩

/-- The files of a run are those that can be made in its workspace. -/
theorem filesMade_of_compile (hp : Passes runner h ms h')
    (hfollows : Follows (compile c driver args) (ms.map (·.event)) r)
    (hzero : c.isDryRun = false → ∀ call ∈ calls (ms.map (·.event)), call.Exits 0)
    (hleaves : c.isDryRun = false → LeavesPaths ms) :
    (files (ms.map (·.event)) = [] ∧
      ∃ fault, ⟨.makeWorkspace, .error fault⟩ ∈ ms.map (·.event)) ∨
    ∃ ha hb path, Host.RecordsTo h ha ∧ outcome Workspace.make ha = (.ok path, hb) ∧
      ⟨.makeWorkspace, .ok path⟩ ∈ ms.map (·.event) ∧
      files (ms.map (·.event)) = filesMade (pathMade hb) path (fileName args) := by
  obtain ⟨hnone, m, hm, fault, hevent, -⟩ | ⟨v, path, rfl, hv⟩ := visit_of_passes_compile hp hfollows
  · exact .inl ⟨hnone, fault, hevent ▸ List.mem_map_of_mem hm⟩
  · obtain ⟨own, rest, r₁, hsplit, hown, hnone, hquiet⟩ := exists_ownStages hv.follows
    obtain ⟨ms₁, ms₂, hm, hinside, hms₁, -, hp₁, -⟩ := hv.passes.split hsplit
    have hsub₁ : ms₁ ⊆ v.inside := hinside ▸ List.subset_append_left ms₁ ms₂
    have hsub : ms₁ ⊆ v.moments := fun m hm => v.inside_subset (hsub₁ hm)
    have hin : ∀ m ∈ ms₁, InWorkspace path m.event.step := fun m hm => hv.inWorkspace m (hsub₁ hm)
    have hzero₁ : ∀ call ∈ calls own, call.Exits 0 := by
      cases hmode : c.isDryRun with
      | true =>
        rw [hquiet hmode]
        exact List.forall_mem_nil _
      | false =>
        intro call hcall
        obtain ⟨e, hmem, hcall⟩ := List.mem_filterMap.mp hcall
        rw [← hms₁] at hmem
        exact hzero hmode call (List.mem_filterMap.mpr ⟨e, List.map_subset _ hsub hmem, hcall⟩)
    have hleaves₁ : LeavesPaths ms₁ := by
      cases hmode : c.isDryRun with
      | true =>
        intro m hm hcall
        have hnone := List.filterMap_eq_nil_iff.mp (hquiet hmode) m.event
          (hms₁ ▸ List.mem_map_of_mem hm)
        rw [hnone] at hcall
        exact nomatch hcall
      | false => exact (hleaves hmode).mono hsub
    obtain ⟨-, -, hfiles⟩ := course_of_ownStages hzero₁ hown
    refine .inr ⟨v.making.before, v.making.after, path, hv.before, hv.make,
      hv.making ▸ List.mem_map_of_mem v.making_mem, ?_⟩
    rw [hv.files_eq, hsplit, files_append, hnone, List.append_nil,
      hfiles _ (hms₁ ▸ answersAs_of_passes hp₁ hin hleaves₁)]

/-- What a dry run derives is what a real run executes. Only the dry run goes on, with one launch, and only
where the real run has built its object file. -/
structure DerivesRun (c : Config) (driver : String) (args : Arguments) (dry real : List Event)
    (rd rr : Except Fault String) : Prop where
  sameFiles : files dry = files real
  executes : Announces false real (dueStages c driver args (files real))
  commands : (calls real).map (·.command) = (dueStages c driver args (files real)).map (·.2)
  derives : ∃ front back, dry = front ++ back ∧
    Announces true front (dueStages c driver args (files real)) ∧
    Announces false back (if rr.isOk then [(originalStage, driver :: args)] else [])
  missing : rd = .error (.failure .missingOutput) ↔ rr = .error (.failure .missingOutput) ∨
    ∃ call ∈ calls dry, call.answer = .error (.failure .missingOutput)
  unnamed : rr = .error (.failure .missingOutput) →
    (dueStages c driver args (files real)).length = 2 ∧ calls dry = []
  forwards : ∀ object, rr = .ok object →
    (dueStages c driver args (files real)).length = 3 ∧
      ∃ answer, calls dry = [⟨driver :: args, none, answer⟩] ∧
        ∀ output, answer = .ok ⟨0, output⟩ → rd = .ok object
  refused : ∀ fault, rr = .error fault → calls dry = [] ∧ ∃ fault', rd = .error fault'

theorem dueStages_of_mode (isDryRun : Bool) (made : List String) :
    dueStages { c with isDryRun := isDryRun } driver args made = dueStages c driver args made := by
  match made with
  | [] | [_] | _ :: _ :: _ => rfl

theorem length_dueStages {made : List String} {bitcode optimized : String}
    (hmade : made = [bitcode, optimized]) :
    (dueStages c driver args made).length = if objectFile args optimized = "" then 2 else 3 := by
  rw [hmade, dueStages, List.length_zip, length_dueCommands]
  split <;> rfl

/-- A stage fails for want of an object file only if its runner says so. -/
theorem settled_map_eq_missing_iff {stage object : String} {command : List String}
    {answer : Except Fault Reply} :
    (settled stage command answer).map (fun _ => object) = .error (.failure .missingOutput) ↔
      answer = .error (.failure .missingOutput) := by
  rcases answer with fault | reply
  · cases fault <;> simp [settled, Except.map]
  · by_cases hcode : reply.code = 0 <;> simp [settled, Except.map, hcode]

/-- Runs that make the same files derive and execute the same. -/
theorem derivesRun_of_follows
    (hdry : Follows (compile { c with isDryRun := true } driver args) dry rd)
    (hreal : Follows (compile { c with isDryRun := false } driver args) real rr)
    (hzero : ∀ call ∈ calls real, call.Exits 0) (hfiles : files dry = files real) :
    DerivesRun c driver args dry real rd rr := by
  obtain ⟨hexecutes, hend⟩ := follows_compile_of_real rfl hzero hreal
  obtain ⟨front, back, r₁, hes, hannounces, hend₁, hforwards⟩ := follows_compile_of_dry rfl hdry
  rw [dueStages_of_mode] at hexecutes hannounces
  rw [hfiles] at hannounces
  have hcalls : calls dry = calls back := by
    rw [hes, calls_append, hannounces.calls_eq_nil, List.nil_append]
  cases hend with
  | @refused s fault hmem hcall few =>
    obtain ⟨s', fault', hmem', hcall', rfl⟩ := hend₁.of_few (hfiles ▸ few)
    have hfault := ne_missingOutput_of_mem hreal hmem hcall
    have hfault' := ne_missingOutput_of_mem hdry hmem' hcall'
    cases hforwards with
    | stopped hback hnone _ =>
      refine ⟨hfiles, hexecutes, hexecutes.commands_eq, ⟨front, back, hes, hannounces, hback⟩, ?_,
        ?_, nofun, fun _ _ => ⟨hcalls.trans hnone, _, rfl⟩⟩
      · refine iff_of_false (fun heq => hfault' (Except.error.inj heq)) ?_
        rintro (heq | ⟨call, hmem, -⟩)
        · exact hfault (Except.error.inj heq)
        · rw [hcalls, hnone] at hmem
          exact nomatch hmem
      · exact fun heq => (hfault (Except.error.inj heq)).elim
  | @unnamed bitcode optimized hmade hobject =>
    have hresult := hend₁.of_two (hfiles.trans hmade)
    rw [if_pos hobject] at hresult
    subst hresult
    cases hforwards with
    | stopped hback hnone _ =>
      refine ⟨hfiles, hexecutes, hexecutes.commands_eq, ⟨front, back, hes, hannounces, hback⟩,
        iff_of_true rfl (.inl rfl), fun _ => ⟨?_, hcalls.trans hnone⟩, nofun,
        fun _ _ => ⟨hcalls.trans hnone, _, rfl⟩⟩
      rw [length_dueStages hmade, if_pos hobject]
  | @built bitcode optimized hmade hobject =>
    have hresult := hend₁.of_two (hfiles.trans hmade)
    rw [if_neg hobject] at hresult
    subst hresult
    cases hforwards with
    | @launched _ answer hback honce _ =>
      refine ⟨hfiles, hexecutes, hexecutes.commands_eq, ⟨front, back, hes, hannounces, hback⟩, ?_,
        (nomatch ·), ?_, fun _ heq => nomatch heq⟩
      · rw [settled_map_eq_missing_iff, hcalls, honce]
        simp
      · rintro _ ⟨⟩
        refine ⟨?_, answer, hcalls.trans honce, ?_⟩
        · rw [length_dueStages hmade, if_neg hobject]
        · rintro output rfl
          rfl

/-- In a workspace of the same path a dry run derives what a real run executes whose commands all return
zero. -/
theorem dry_run_derives_real_run {dryRunner realRunner : Runner} (c : Config) (driver : String)
    (args : Arguments) (hways : h.SameWays h')
    (hpath : ∀ made made',
      ⟨.makeWorkspace, made⟩ ∈
        (compile { c with isDryRun := true } driver args).events dryRunner h →
      ⟨.makeWorkspace, made'⟩ ∈
        (compile { c with isDryRun := false } driver args).events realRunner h' → made = made')
    (hzero : ∀ call ∈ calls
      ((compile { c with isDryRun := false } driver args).events realRunner h'), call.Exits 0)
    (hleaves : LeavesPaths
      ((compile { c with isDryRun := false } driver args).history realRunner h')) :
    DerivesRun c driver args
      ((compile { c with isDryRun := true } driver args).events dryRunner h)
      ((compile { c with isDryRun := false } driver args).events realRunner h')
      (outcome ((compile { c with isDryRun := true } driver args).run dryRunner) h).1
      (outcome ((compile { c with isDryRun := false } driver args).run realRunner) h').1 := by
  have hdry := follows_events dryRunner (compile { c with isDryRun := true } driver args) h
  have hreal := follows_events realRunner (compile { c with isDryRun := false } driver args) h'
  refine derivesRun_of_follows hdry hreal hzero ?_
  obtain ⟨hnone, fault, hmem⟩ | ⟨ha, hb, path, hrecords, hmake, hmem, hfiles⟩ :=
    filesMade_of_compile (passes_history dryRunner _ h) hdry nofun nofun <;>
  obtain ⟨hnone', fault', hmem'⟩ | ⟨ha', hb', path', hrecords', hmake', hmem', hfiles'⟩ :=
    filesMade_of_compile (passes_history realRunner _ h') hreal (fun _ => hzero) fun _ => hleaves
  · exact hnone.trans hnone'.symm
  · exact nomatch hpath _ _ hmem hmem'
  · exact nomatch hpath _ _ hmem hmem'
  · obtain rfl : path = path' := Except.ok.inj (hpath _ _ hmem hmem')
    have hbefore : ha.SameWays ha' := (Host.SameWays.of_recordsTo hrecords).symm.trans
      (hways.trans (.of_recordsTo hrecords'))
    have hsame : pathMade hb = pathMade hb' := funext fun directory => funext fun name =>
      pathMade_eq_of_sameWays (sameWays_of_make hbefore hmake hmake') directory name
    rw [hsame] at hfiles
    exact hfiles.trans hfiles'.symm

/-- A runner that leaves the machine as it is leaves the paths of files. -/
theorem leavesPaths_of_isDetached (hdetached : IsDetached runner) (hp : Passes runner h ms h') :
    LeavesPaths ms :=
  fun m hm hcall directory name _ _ =>
    pathMade_eq_of_sameWays (hdetached.sameWays hp m hm hcall) directory name

/-- The hypotheses hold of commands that all succeed. -/
theorem dry_run_derives_real_run_succeeding :
    (∀ call ∈ calls ((compile { oneDriverConfig with isDryRun := false } "/bin/clang"
      simpleArguments).events succeeding oneDriver), call.Exits 0) ∧
    DerivesRun oneDriverConfig "/bin/clang" simpleArguments
      ((compile { oneDriverConfig with isDryRun := true } "/bin/clang" simpleArguments).events
        succeeding oneDriver)
      ((compile { oneDriverConfig with isDryRun := false } "/bin/clang" simpleArguments).events
        succeeding oneDriver)
      (outcome ((compile { oneDriverConfig with isDryRun := true } "/bin/clang"
        simpleArguments).run succeeding) oneDriver).1
      (outcome ((compile { oneDriverConfig with isDryRun := false } "/bin/clang"
        simpleArguments).run succeeding) oneDriver).1 := by
  have hsource : fileName simpleArguments = "a.c" := by decide +kernel
  have hready : IsReady oneDriver (fileName simpleArguments) ["tmp"] := hsource ▸ isReady_oneDriver
  have hmade : ∀ c made,
      ⟨.makeWorkspace, made⟩ ∈ (compile c "/bin/clang" simpleArguments).events succeeding oneDriver →
      made = .ok (pathOf oneDriver (oneDriver.attempts + 1)) := by
    intro c made hmem
    obtain ⟨m, hm, hevent⟩ := List.mem_map.mp hmem
    exact ((progresses_of_isReady _ _ hready
      (isDetached_succeeding.sameWays (passes_history succeeding _ oneDriver))).made m hm _ hevent).1
  have hzero : ∀ call ∈ calls ((compile { oneDriverConfig with isDryRun := false } "/bin/clang"
      simpleArguments).events succeeding oneDriver), call.Exits 0 := by
    intro call hmem
    obtain ⟨h, hanswer⟩ := (passes_history succeeding _ oneDriver).answer_of_mem_calls hmem
    exact ⟨[], hanswer.symm⟩
  exact ⟨hzero, dry_run_derives_real_run oneDriverConfig "/bin/clang" simpleArguments
    (.refl oneDriver) (fun made made' hmem hmem' => (hmade _ _ hmem).trans (hmade _ _ hmem').symm)
    hzero (leavesPaths_of_isDetached isDetached_succeeding (passes_history succeeding _ oneDriver))⟩

end BitcodeWrapper.Pipeline
