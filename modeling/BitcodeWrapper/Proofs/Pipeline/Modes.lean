import BitcodeWrapper.Proofs.Pipeline.Announcement

/-! The two modes of a run. Both make the same files and go through the stages that are due for these; a
dry run then launches the driver once on the arguments given. -/
namespace BitcodeWrapper.Pipeline
open Job

variable {isDryRun : Bool} {c : Config} {driver source path stage : String} {args : Arguments}
  {command : List String} {environment : Option Bindings} {answer : Except Fault Reply}
  {es vs : List Event} {r : Except Fault String}

def stageNames : List String := ["emitting bitcode", "running opt", "building bitcode"]

/-- The stages that there is something to do for once these files are made. -/
def dueStages (c : Config) (driver : String) (args : Arguments) :
    List String → List (String × List String)
  | [] => []
  | [bitcode] => [("emitting bitcode", driver :: StageCommand.emitBitcode args bitcode)]
  | bitcode :: optimized :: _ => stageNames.zip (dueCommands c driver args bitcode optimized)

/-- How the stages end if no command fails: a file cannot be made, or there is no object file to build, or
it is built. -/
inductive StagesEnd (args : Arguments) (es : List Event) : Except Fault String → Prop
  | refused {s : Step} {fault : Fault} (hmem : ⟨s, .error fault⟩ ∈ es)
      (hcall : Event.call? ⟨s, .error fault⟩ = none) (few : (files es).length < 2) :
      StagesEnd args es (.error fault)
  | unnamed {bitcode optimized : String} (hfiles : files es = [bitcode, optimized])
      (hobject : objectFile args optimized = "") :
      StagesEnd args es (.error (.failure .missingOutput))
  | built {bitcode optimized : String} (hfiles : files es = [bitcode, optimized])
      (hobject : objectFile args optimized ≠ "") :
      StagesEnd args es (.ok (objectFile args optimized))

theorem StagesEnd.mono {es' : List Event} (h : StagesEnd args es r) (hsub : es ⊆ es')
    (hfiles : files es' = files es) : StagesEnd args es' r := by
  cases h with
  | refused hmem hcall few => exact .refused (hsub hmem) hcall (hfiles ▸ few)
  | unnamed hmade hobject => exact .unnamed (hfiles.trans hmade) hobject
  | built hmade hobject => exact .built (hfiles.trans hmade) hobject

/-- Without both files a step was refused. -/
theorem StagesEnd.of_few (h : StagesEnd args es r) (few : (files es).length < 2) :
    ∃ s fault, (⟨s, .error fault⟩ : Event) ∈ es ∧ Event.call? ⟨s, .error fault⟩ = none ∧
      r = .error fault := by
  cases h with
  | refused hmem hcall few => exact ⟨_, _, hmem, hcall, rfl⟩
  | unnamed hfiles hobject | built hfiles hobject =>
    rw [hfiles] at few
    exact absurd few (by decide : ¬ 2 < 2)

/-- With both files the arguments decide. -/
theorem StagesEnd.of_two {bitcode optimized : String} (h : StagesEnd args es r)
    (hfiles : files es = [bitcode, optimized]) :
    r = if objectFile args optimized = "" then .error (.failure .missingOutput)
      else .ok (objectFile args optimized) := by
  cases h with
  | refused hmem hcall few =>
    rw [hfiles] at few
    exact absurd few (by decide : ¬ 2 < 2)
  | unnamed hfiles' hobject =>
    obtain ⟨⟩ := hfiles.symm.trans hfiles'
    rw [if_pos hobject]
  | built hfiles' hobject =>
    obtain ⟨⟩ := hfiles.symm.trans hfiles'
    rw [if_neg hobject]

/-- What is refused is no want of an object file. -/
theorem ne_missingOutput_of_mem {s : Step} {fault : Fault}
    (hfollows : Follows (compile c driver args) es r) (hmem : ⟨s, .error fault⟩ ∈ es)
    (hcall : Event.call? ⟨s, .error fault⟩ = none) : fault ≠ .failure .missingOutput := by
  have hcan := hfollows.canFail_of_mem hmem
  rintro rfl
  cases s with
  | makeWorkspace =>
    obtain ⟨cause, ⟨⟩⟩ := hcan
  | createFile directory name =>
    obtain ⟨cause, heq⟩ | heq := hcan
    · exact nomatch heq
    · exact nomatch heq
  | launch command environment => exact nomatch hcall
  | _ => exact hcan

/-- The answers to requests for files are those of a function. -/
def AnswersAs (F : String → String → Option String) (es : List Event) : Prop :=
  ∀ directory name answer, (⟨.createFile directory name, answer⟩ : Event) ∈ es →
    answer.toOption = F directory name

/-- The files that stages make which get such answers. -/
def filesMade (F : String → String → Option String) (path source : String) : List String :=
  match F path (source ++ ".bc") with
  | none => []
  | some bitcode => bitcode :: (F path (Path.stem bitcode ++ ".opt.bc")).toList

theorem filesMade_of_first {F : String → String → Option String} {bitcode : String}
    (hfirst : F path (source ++ ".bc") = some bitcode) :
    filesMade F path source = bitcode :: (F path (Path.stem bitcode ++ ".opt.bc")).toList := by
  rw [filesMade, hfirst]

/-- The stages of either mode, without the launch that ends a dry run. -/
def ownStages (c : Config) (driver source : String) (args : Arguments) (path : String) :
    Job String := do
  let bitcode ← emitBitcode source driver args path c.isDryRun
  let optimized ← schedulePasses source c bitcode path c.isDryRun
  buildBitcode driver optimized args c.isDryRun

/-- A command that returned zero fails no stage, and a dry run has none. -/
theorem stageResult_of_exits (stage : String)
    (hzero : ∀ call ∈ calls (stageEvents isDryRun command environment answer), call.Exits 0) :
    ∃ output, stageResult isDryRun stage command answer = .ok output := by
  cases isDryRun with
  | true => exact ⟨[], rfl⟩
  | false =>
    obtain ⟨output, hanswer⟩ := hzero ⟨command, environment, answer⟩ List.mem_cons_self
    obtain rfl : answer = .ok ⟨0, output⟩ := hanswer
    exact ⟨output, rfl⟩

/-- What is shown of events is among them. -/
theorem mem_of_visible {e : Event} (hvisible : es.filter (·.isVisible) = vs) (hmem : e ∈ vs) :
    e ∈ es :=
  (List.mem_filter.mp (hvisible.symm ▸ hmem)).1

theorem emitBitcode_of_exits (hzero : ∀ call ∈ calls es, call.Exits 0)
    (h : Follows (emitBitcode source driver args path isDryRun) es r) :
    (∃ fault, ⟨.createFile path (source ++ ".bc"), .error fault⟩ ∈ es ∧ files es = [] ∧
      r = .error fault) ∨
    ∃ bitcode, ⟨.createFile path (source ++ ".bc"), .ok bitcode⟩ ∈ es ∧ files es = [bitcode] ∧
      r = .ok bitcode := by
  rw [← calls_visible] at hzero
  rw [← files_visible]
  obtain ⟨fault, -, hvisible, rfl⟩ | ⟨bitcode, answer, hvisible, rfl⟩ :=
    shows_emitBitcode_iff.mp h.shows
  · exact .inl ⟨fault, mem_of_visible hvisible List.mem_cons_self, by rw [hvisible]; rfl, rfl⟩
  · rw [hvisible] at hzero ⊢
    obtain ⟨output, hresult⟩ := stageResult_of_exits "emitting bitcode" hzero
    refine .inr ⟨bitcode, mem_of_visible hvisible List.mem_cons_self, ?_, by rw [hresult]; rfl⟩
    rw [files_cons, files_stageEvents]
    rfl

theorem schedulePasses_of_exits {bitcode : String} (hzero : ∀ call ∈ calls es, call.Exits 0)
    (h : Follows (schedulePasses source c bitcode path isDryRun) es r) :
    (∃ fault, ⟨.createFile path (Path.stem bitcode ++ ".opt.bc"), .error fault⟩ ∈ es ∧
      files es = [] ∧ r = .error fault) ∨
    ∃ optimized, ⟨.createFile path (Path.stem bitcode ++ ".opt.bc"), .ok optimized⟩ ∈ es ∧
      files es = [optimized] ∧ r = .ok optimized := by
  rw [← calls_visible] at hzero
  rw [← files_visible]
  obtain ⟨fault, -, hvisible, rfl⟩ | ⟨optimized, own, answer, hvisible, rfl⟩ :=
    shows_schedulePasses_iff.mp h.shows
  · exact .inl ⟨fault, mem_of_visible hvisible List.mem_cons_self, by rw [hvisible]; rfl, rfl⟩
  · rw [hvisible] at hzero ⊢
    obtain ⟨output, hresult⟩ := stageResult_of_exits "running opt" hzero
    refine .inr ⟨optimized, mem_of_visible hvisible List.mem_cons_self, ?_, by rw [hresult]; rfl⟩
    rw [files_cons, files_stageEvents]
    rfl

theorem buildBitcode_of_exits {optimized : String} (hzero : ∀ call ∈ calls es, call.Exits 0)
    (h : Follows (buildBitcode driver optimized args isDryRun) es r) :
    files es = [] ∧
      r = if objectFile args optimized = "" then .error (.failure .missingOutput)
        else .ok (objectFile args optimized) := by
  rw [← calls_visible] at hzero
  rw [← files_visible]
  obtain ⟨hobject, hvisible, rfl⟩ | ⟨hobject, answer, hvisible, rfl⟩ :=
    shows_buildBitcode_iff.mp h.shows
  · exact ⟨by rw [hvisible]; rfl, (if_pos hobject).symm⟩
  · rw [hvisible] at hzero ⊢
    obtain ⟨output, hresult⟩ := stageResult_of_exits "building bitcode" hzero
    refine ⟨files_stageEvents _ _ _ _, ?_⟩
    rw [hresult, objectFile, if_neg hobject]
    rfl

/-- Unless a command fails, either mode goes through the stages that are due for its files, and these
depend on the answers to its requests only. -/
theorem course_of_ownStages (hzero : ∀ call ∈ calls es, call.Exits 0)
    (h : Follows (ownStages c driver source args path) es r) :
    Announces c.isDryRun es (dueStages c driver args (files es)) ∧ StagesEnd args es r ∧
      ∀ F, AnswersAs F es → files es = filesMade F path source := by
  obtain ⟨fault, h₁, rfl⟩ | ⟨bitcode, es₁, es', rfl, h₁, h'⟩ := follows_bind_iff.mp h
  · obtain ⟨_, hmem, hfiles, ⟨⟩⟩ | ⟨_, -, -, ⟨⟩⟩ := emitBitcode_of_exits hzero h₁
    have hannounces := announces_emitBitcode h₁
    rw [hfiles] at hannounces ⊢
    refine ⟨hannounces, .refused hmem rfl (by rw [hfiles]; exact Nat.two_pos), ?_⟩
    intro F hanswers
    rw [filesMade, ← hanswers _ _ _ hmem]
    rfl
  rw [calls_append, List.forall_mem_append] at hzero
  obtain ⟨_, -, -, ⟨⟩⟩ | ⟨_, hmem₁, hfiles₁, ⟨⟩⟩ := emitBitcode_of_exits hzero.1 h₁
  have hannounces₁ := announces_emitBitcode h₁
  rw [hfiles₁] at hannounces₁
  have hfirst : ∀ F, AnswersAs F (es₁ ++ es') → F path (source ++ ".bc") = some bitcode :=
    fun F hanswers => (hanswers _ _ _ (List.mem_append_left _ hmem₁)).symm
  obtain ⟨fault, h₂, rfl⟩ | ⟨optimized, es₂, es₃, rfl, h₂, h₃⟩ := follows_bind_iff.mp h'
  · obtain ⟨_, hmem, hfiles₂, ⟨⟩⟩ | ⟨_, -, -, ⟨⟩⟩ := schedulePasses_of_exits hzero.2 h₂
    have hannounces₂ := announces_schedulePasses h₂
    rw [hfiles₂] at hannounces₂
    have hfiles : files (es₁ ++ es') = [bitcode] := by rw [files_append, hfiles₁, hfiles₂]; rfl
    have hmem' := List.mem_append_right es₁ hmem
    rw [hfiles]
    refine ⟨hannounces₁.append hannounces₂,
      .refused hmem' rfl (by rw [hfiles]; exact Nat.one_lt_two), ?_⟩
    intro F hanswers
    rw [filesMade_of_first (hfirst F hanswers), ← hanswers _ _ _ hmem']
    rfl
  rw [calls_append, List.forall_mem_append] at hzero
  obtain ⟨_, -, -, ⟨⟩⟩ | ⟨_, hmem₂, hfiles₂, ⟨⟩⟩ := schedulePasses_of_exits hzero.2.1 h₂
  have hannounces₂ := announces_schedulePasses h₂
  rw [hfiles₂] at hannounces₂
  obtain ⟨hfiles₃, hresult⟩ := buildBitcode_of_exits hzero.2.2 h₃
  have hfiles : files (es₁ ++ (es₂ ++ es₃)) = [bitcode, optimized] := by
    rw [files_append, files_append, hfiles₁, hfiles₂, hfiles₃]
    rfl
  rw [hfiles]
  refine ⟨?_, ?_, ?_⟩
  · have hdue : dueStages c driver args [bitcode, optimized] =
        [("emitting bitcode", driver :: StageCommand.emitBitcode args bitcode)] ++
          ([("running opt", c.optimizer ::
              StageCommand.schedulePasses c.optimizerArguments bitcode optimized)] ++
            if objectFile args optimized = "" then []
            else [("building bitcode", driver :: StageCommand.buildBitcode args optimized)]) := by
      simp only [dueStages, stageNames, dueCommands]
      split <;> rfl
    rw [hdue]
    exact hannounces₁.append (hannounces₂.append (announces_buildBitcode h₃))
  · rw [hresult]
    split
    · exact .unnamed hfiles ‹_›
    · exact .built hfiles ‹_›
  · intro F hanswers
    have hsecond := hanswers _ _ _ (List.mem_append_right es₁ (List.mem_append_left es₃ hmem₂))
    rw [filesMade_of_first (hfirst F hanswers), ← hsecond]
    rfl

/-- The name of the launch that ends a dry run. -/
def originalStage : String := "running original clang during dry-run"

/-- What a dry run does after its own stages: nothing if these failed, and otherwise it launches the driver
on the arguments given. -/
inductive Forwards (driver : String) (args : Arguments) (es : List Event) :
    Except Fault String → Except Fault String → Prop
  | stopped {fault : Fault} (hannounces : Announces false es []) (hcalls : calls es = [])
      (hfiles : files es = []) : Forwards driver args es (.error fault) (.error fault)
  | launched {object : String} {answer : Except Fault Reply}
      (hannounces : Announces false es [(originalStage, driver :: args)])
      (hcalls : calls es = [⟨driver :: args, none, answer⟩]) (hfiles : files es = []) :
      Forwards driver args es (.ok object)
        ((settled originalStage (driver :: args) answer).map fun _ => object)

theorem Forwards.files_eq_nil {r₁ : Except Fault String} (h : Forwards driver args es r₁ r) :
    files es = [] := by
  cases h <;> assumption

theorem stages_eq : stages c driver source args path =
    ownStages c driver source args path >>= fun object =>
      if c.isDryRun = true then
        Job.debug "Running original clang during dry-run..." >>= fun _ =>
          runStage originalStage (driver :: args) false none >>= fun _ => pure object
      else pure object := by
  simp only [stages, ownStages, originalStage, bind_assoc]

theorem ownStages_of_real (hreal : c.isDryRun = false)
    (h : Follows (stages c driver source args path) es r) :
    Follows (ownStages c driver source args path) es r := by
  simpa only [stages_eq, hreal, Bool.false_eq_true, ↓reduceIte, bind_pure] using h

theorem ownStages_of_dry (hdry : c.isDryRun = true)
    (h : Follows (stages c driver source args path) es r) :
    ∃ es₁ es₂ r₁, es = es₁ ++ es₂ ∧ Follows (ownStages c driver source args path) es₁ r₁ ∧
      Forwards driver args es₂ r₁ r := by
  simp only [stages_eq, hdry, ↓reduceIte] at h
  obtain ⟨fault, hown, rfl⟩ | ⟨object, es₁, es₂, rfl, hown, hending⟩ := follows_bind_iff.mp h
  · exact ⟨es, [], _, (List.append_nil es).symm, hown, .stopped .nil rfl rfl⟩
  · refine ⟨es₁, es₂, _, rfl, hown, ?_⟩
    obtain ⟨es', rfl, hstage⟩ := follows_log_bind_iff.mp hending
    obtain ⟨_, hrun, rfl⟩ := (shows_bind_quiet_iff (g := fun _ => object)
      fun _ _ _ => shows_pure_iff).mp hstage.shows
    obtain ⟨answer, hvisible, rfl⟩ := shows_runStage_iff.mp hrun
    refine .launched ?_ ?_ ?_
    · refine .aside (.debug (by decide)) (announces_runStage_bind (by decide) ?_ hstage)
      intro _ es r hpure
      exact (follows_pure_iff.mp hpure).1 ▸ List.forall_mem_nil _
    · rw [calls_cons, ← calls_visible, hvisible]
      rfl
    · rw [files_cons, ← files_visible, hvisible]
      rfl

theorem exists_announces_ownStages (h : Follows (ownStages c driver source args path) es r) :
    ∃ todo, Announces c.isDryRun es todo := by
  obtain ⟨fault, h₁, rfl⟩ | ⟨bitcode, es₁, es', rfl, h₁, h'⟩ := follows_bind_iff.mp h
  · exact ⟨_, announces_emitBitcode h₁⟩
  obtain ⟨fault, h₂, rfl⟩ | ⟨optimized, es₂, es₃, rfl, h₂, h₃⟩ := follows_bind_iff.mp h'
  · exact ⟨_, (announces_emitBitcode h₁).append (announces_schedulePasses h₂)⟩
  · exact ⟨_, (announces_emitBitcode h₁).append
      ((announces_schedulePasses h₂).append (announces_buildBitcode h₃))⟩

/-- The stages of a dry run launch nothing, so that no command of theirs can fail. -/
theorem calls_ownStages_of_dry (hdry : c.isDryRun = true)
    (h : Follows (ownStages c driver source args path) es r) : calls es = [] := by
  obtain ⟨todo, hannounces⟩ := exists_announces_ownStages h
  rw [hdry] at hannounces
  exact hannounces.calls_eq_nil

theorem isAside_configRecord (c : Config) (args : Arguments) : IsAside (configRecord c args) := by
  refine .debug ?_
  simp only [String.append_assoc]
  exact append_ne_dryRunText (by decide) _

theorem isAside_sourceRecord (args : Arguments) : IsAside (sourceRecord args) := by
  rw [sourceRecord]
  split
  · exact .of_not_debug rfl rfl
  · refine .debug fun heq => ?_
    have hlast := congrArg (fun text => text.toList.getLast?) heq
    have hname : ∀ language : Language, ∃ ch ≠ 'd', language.name.toList.getLast? = some ch := by
      intro language
      cases language <;> exact ⟨_, by decide, rfl⟩
    obtain ⟨ch, hch, hname⟩ := hname (SourceFile.ofArguments args).language
    simp only [String.toList_append, List.getLast?_append, hname, Option.some_or] at hlast
    exact hch (Option.some.inj hlast)

theorem isAside_first (c : Config) (args : Arguments) :
    ∀ e ∈ [configRecord c args, sourceRecord args], IsAside e :=
  List.forall_mem_cons.mpr
    ⟨isAside_configRecord c args, List.forall_mem_singleton.mpr (isAside_sourceRecord args)⟩

theorem IsSuccess.isAside {e : Event} (h : IsSuccess e) : IsAside e := by
  obtain ⟨message, rfl⟩ := h
  exact .of_not_debug rfl rfl

/-- Neither what is recorded first nor the making of a workspace is a stage. -/
theorem announces_before {todo : List (String × List String)} {made : Except Fault String}
    (h : Announces isDryRun es todo) :
    Announces isDryRun
      ([configRecord c args, sourceRecord args] ++ ([⟨.makeWorkspace, made⟩] ++ es)) todo :=
  (Announces.of_asides (isAside_first c args)).append (.aside (.of_not_debug rfl rfl) h)

/-- Nor is the release, or what is recorded then. -/
theorem announces_after {todo : List (String × List String)} {retain : Bool} {after : List Event}
    (hafter : ∀ e ∈ after, IsSuccess e) (h : Announces isDryRun es todo) :
    Announces isDryRun (es ++ ([⟨.releaseWorkspace retain path, .ok ()⟩] ++ after)) todo := by
  have hrest : Announces isDryRun ([⟨.releaseWorkspace retain path, .ok ()⟩] ++ after) [] :=
    .aside (.of_not_debug rfl rfl) (.of_asides fun e he => (hafter e he).isAside)
  have hboth := h.append hrest
  rwa [List.append_nil] at hboth

/-- The release neither launches nor makes anything. -/
theorem Forwards.append_release {r₁ : Except Fault String} {retain : Bool} {after : List Event}
    (hafter : ∀ e ∈ after, IsSuccess e) (h : Forwards driver args es r₁ r) :
    Forwards driver args (es ++ ([⟨.releaseWorkspace retain path, .ok ()⟩] ++ after)) r₁ r := by
  have hrecord : ∀ e ∈ after, IsRecord e := fun e he => (hafter e he).isRecord
  have hcalls : calls (es ++ ([⟨.releaseWorkspace retain path, .ok ()⟩] ++ after)) = calls es := by
    rw [calls_append, calls_append, calls_of_records hrecord]
    exact List.append_nil _
  have hfiles : files (es ++ ([⟨.releaseWorkspace retain path, .ok ()⟩] ++ after)) = files es := by
    rw [files_append, files_append, files_of_records hrecord]
    exact List.append_nil _
  cases h with
  | stopped hannounces hnone hmade =>
    exact .stopped (announces_after hafter hannounces) (hcalls.trans hnone) (hfiles.trans hmade)
  | launched hannounces honce hmade =>
    exact .launched (announces_after hafter hannounces) (hcalls.trans honce) (hfiles.trans hmade)

/-- Without a workspace there are no stages. -/
theorem stagesEnd_of_unmade {after : List Event} {fault : Fault}
    (hafter : ∀ e ∈ after, IsSuccess e) :
    StagesEnd args
      ([configRecord c args, sourceRecord args] ++ ([⟨.makeWorkspace, .error fault⟩] ++ after))
      (.error fault) := by
  refine .refused (s := .makeWorkspace) (by simp) rfl ?_
  rw [files_unmade hafter]
  exact Nat.two_pos

/-- A real run in which no command fails goes through the stages that are due for its files. -/
theorem follows_compile_of_real (hreal : c.isDryRun = false) (hzero : ∀ call ∈ calls es, call.Exits 0)
    (h : Follows (compile c driver args) es r) :
    Announces false es (dueStages c driver args (files es)) ∧ StagesEnd args es r := by
  obtain ⟨after, hafter, ⟨fault, rfl, rfl⟩ | ⟨path, body, hbody, rfl⟩⟩ := parts_of_follows_compile h
  · rw [files_unmade hafter]
    exact ⟨announces_before (.of_asides fun e he => (hafter e he).isAside),
      stagesEnd_of_unmade hafter⟩
  · have hrecord : ∀ e ∈ after, IsRecord e := fun e he => (hafter e he).isRecord
    rw [calls_throughWorkspace (isRecord_first c args) hrecord] at hzero
    obtain ⟨hannounces, hend, -⟩ := course_of_ownStages hzero (ownStages_of_real hreal hbody)
    have hfiles : files (throughWorkspace c.retainsWorkspace path
        [configRecord c args, sourceRecord args] body after) = files body :=
      files_throughWorkspace (isRecord_first c args) hrecord
    rw [hreal] at hannounces
    refine ⟨?_, hend.mono (fun e he => by simp [throughWorkspace, he]) hfiles⟩
    rw [hfiles]
    exact announces_before (announces_after hafter hannounces)

/-- A dry run goes through the same stages without a launch, and then launches the driver. -/
theorem follows_compile_of_dry (hdry : c.isDryRun = true) (h : Follows (compile c driver args) es r) :
    ∃ front back r₁, es = front ++ back ∧ Announces true front (dueStages c driver args (files es)) ∧
      StagesEnd args es r₁ ∧ Forwards driver args back r₁ r := by
  obtain ⟨after, hafter, ⟨fault, rfl, rfl⟩ | ⟨path, body, hbody, rfl⟩⟩ := parts_of_follows_compile h
  · refine ⟨_, [], _, (List.append_nil _).symm, ?_, stagesEnd_of_unmade hafter,
      .stopped .nil rfl rfl⟩
    rw [files_unmade hafter]
    exact announces_before (.of_asides fun e he => (hafter e he).isAside)
  · have hrecord : ∀ e ∈ after, IsRecord e := fun e he => (hafter e he).isRecord
    obtain ⟨own, rest, r₁, rfl, hown, hforwards⟩ := ownStages_of_dry hdry hbody
    have hcalls := calls_ownStages_of_dry hdry hown
    obtain ⟨hannounces, hend, -⟩ :=
      course_of_ownStages (by rw [hcalls]; exact List.forall_mem_nil _) hown
    have hfiles : files (throughWorkspace c.retainsWorkspace path
        [configRecord c args, sourceRecord args] (own ++ rest) after) = files (own ++ rest) :=
      files_throughWorkspace (isRecord_first c args) hrecord
    rw [files_append, hforwards.files_eq_nil, List.append_nil] at hfiles
    rw [hdry] at hannounces
    refine ⟨[configRecord c args, sourceRecord args] ++ ([⟨.makeWorkspace, .ok path⟩] ++ own),
      rest ++ ([⟨.releaseWorkspace c.retainsWorkspace path, .ok ()⟩] ++ after), r₁, ?_, ?_,
      hend.mono (fun e he => by simp [throughWorkspace, he]) hfiles, hforwards.append_release hafter⟩
    · simp only [throughWorkspace, List.append_assoc]
    · rw [hfiles]
      exact announces_before hannounces

end BitcodeWrapper.Pipeline
