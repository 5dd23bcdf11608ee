import BitcodeWrapper.Proofs.Pipeline.Progress
import BitcodeWrapper.Proofs.StageCommand.Build

/-! The files that the stages hand on to each other: each one is written by one command and read by the
next, under the same path, and is there when they are launched. -/
namespace BitcodeWrapper.Pipeline
open BitcodeWrapper.Action Arguments Files Job Workspace
open SourceFile (compileFlag)
open StageCommand (outputFlag)

variable {runner : Runner} {c : Config} {driver source path : String} {args : Arguments}
  {vs : List Event} {r : Except Fault String} {W : Location}

/-- The file that stage one writes and stage two reads. -/
def bitcodeIn (path source : String) : String := Path.join path (source ++ ".bc")

/-- The file that stage two writes and stage three reads. -/
def optimizedIn (path source : String) : String := Path.join path (source ++ ".opt.bc")

/-- What a real run shows in its workspace if no command fails and there is an object file to build. -/
def shownInOrder (c : Config) (driver : String) (args : Arguments) (path source : String)
    (own : Bindings) (a₁ a₂ a₃ : Except Fault Reply) : List Event :=
  [⟨.createFile path (source ++ ".bc"), .ok (bitcodeIn path source)⟩,
    ⟨.launch (driver :: StageCommand.emitBitcode args (bitcodeIn path source)) none, a₁⟩,
    ⟨.createFile path (source ++ ".opt.bc"), .ok (optimizedIn path source)⟩,
    ⟨.launch (c.optimizer :: StageCommand.schedulePasses c.optimizerArguments
      (bitcodeIn path source) (optimizedIn path source)) (some (optimizerEnvironment own c)), a₂⟩,
    ⟨.launch (driver :: StageCommand.buildBitcode args (optimizedIn path source)) none, a₃⟩]

/-- Files get the paths that they are asked for under, unless a variable in these is expanded. -/
def AnswersJoined (es : List Event) : Prop :=
  ∀ directory name answer, (⟨.createFile directory name, answer⟩ : Event) ∈ es →
    '$' ∉ name.toList → answer = .ok (Path.join directory name)

theorem AnswersJoined.mono {es es' : List Event} (h : AnswersJoined es) (hsub : es' ⊆ es) :
    AnswersJoined es' :=
  fun directory name answer hmem => h directory name answer (hsub hmem)

theorem shows_emitBitcode_joined (hsource : '$' ∉ source.toList) (hanswers : AnswersJoined vs)
    (h : Shows (emitBitcode source driver args path false) vs r) :
    ∃ a, vs = [⟨.createFile path (source ++ ".bc"), .ok (bitcodeIn path source)⟩,
        ⟨.launch (driver :: StageCommand.emitBitcode args (bitcodeIn path source)) none, a⟩] ∧
      ∀ bitcode, r = .ok bitcode → bitcode = bitcodeIn path source := by
  have hname : '$' ∉ (source ++ ".bc").toList := notMem_append hsource (by decide)
  obtain ⟨fault, -, rfl, -⟩ | ⟨bitcode, a, rfl, rfl⟩ := shows_emitBitcode_iff.mp h
  · exact nomatch hanswers _ _ _ List.mem_cons_self hname
  · obtain rfl := Except.ok.inj (hanswers _ _ _ List.mem_cons_self hname)
    exact ⟨a, rfl, fun _ => eq_of_map_eq_ok⟩

theorem shows_schedulePasses_joined (hsource : '$' ∉ source.toList)
    (hstem : Path.stem (bitcodeIn path source) = source) (hanswers : AnswersJoined vs)
    (h : Shows (schedulePasses source c (bitcodeIn path source) path false) vs r) :
    ∃ own a, vs = [⟨.createFile path (source ++ ".opt.bc"), .ok (optimizedIn path source)⟩,
        ⟨.launch (c.optimizer :: StageCommand.schedulePasses c.optimizerArguments
          (bitcodeIn path source) (optimizedIn path source))
          (some (optimizerEnvironment own c)), a⟩] ∧
      ∀ optimized, r = .ok optimized → optimized = optimizedIn path source := by
  have hname : '$' ∉ (source ++ ".opt.bc").toList := notMem_append hsource (by decide)
  rw [shows_schedulePasses_iff, hstem] at h
  obtain ⟨fault, -, rfl, -⟩ | ⟨optimized, own, a, rfl, rfl⟩ := h
  · exact nomatch hanswers _ _ _ List.mem_cons_self hname
  · obtain rfl := Except.ok.inj (hanswers _ _ _ List.mem_cons_self hname)
    exact ⟨own, a, rfl, fun _ => eq_of_map_eq_ok⟩

theorem shows_buildBitcode_prefix {optimized : String}
    (h : Shows (buildBitcode driver optimized args false) vs r) :
    ∃ a, vs <+: [⟨.launch (driver :: StageCommand.buildBitcode args optimized) none, a⟩] := by
  obtain ⟨-, rfl, -⟩ | ⟨-, a, rfl, -⟩ := shows_buildBitcode_iff.mp h
  · exact ⟨.error .ended, List.nil_prefix⟩
  · exact ⟨a, List.prefix_rfl⟩

/-- A real run shows these events up to the first command that fails. -/
theorem shows_stages_prefix (hreal : c.isDryRun = false) (hsource : '$' ∉ source.toList)
    (hstem : Path.stem (bitcodeIn path source) = source) (hanswers : AnswersJoined vs)
    (h : Shows (stages c driver source args path) vs r) :
    ∃ own a₁ a₂ a₃, 2 ≤ vs.length ∧
      vs <+: shownInOrder c driver args path source own a₁ a₂ a₃ := by
  simp only [stages, hreal, Bool.false_eq_true, ↓reduceIte, bind_pure] at h
  obtain ⟨fault, h₁, rfl⟩ | ⟨bitcode, vs₁, vs', rfl, h₁, h'⟩ := shows_bind_iff.mp h
  · obtain ⟨a₁, rfl, -⟩ := shows_emitBitcode_joined hsource hanswers h₁
    exact ⟨[], a₁, a₁, a₁, Nat.le_refl 2, List.prefix_append _ _⟩
  obtain ⟨a₁, rfl, hbitcode⟩ :=
    shows_emitBitcode_joined hsource (hanswers.mono (List.subset_append_left _ _)) h₁
  obtain rfl := hbitcode _ rfl
  replace hanswers := hanswers.mono (List.subset_append_right _ vs')
  obtain ⟨fault, h₂, rfl⟩ | ⟨optimized, vs₂, vs₃, rfl, h₂, h₃⟩ := shows_bind_iff.mp h'
  · obtain ⟨own, a₂, rfl, -⟩ := shows_schedulePasses_joined hsource hstem hanswers h₂
    exact ⟨own, a₁, a₂, a₂, by simp, List.prefix_append _ _⟩
  obtain ⟨own, a₂, rfl, hoptimized⟩ :=
    shows_schedulePasses_joined hsource hstem (hanswers.mono (List.subset_append_left _ _)) h₂
  obtain rfl := hoptimized _ rfl
  obtain ⟨a₃, h₃⟩ := shows_buildBitcode_prefix h₃
  refine ⟨own, a₁, a₂, a₃, by simp, ?_⟩
  simp only [shownInOrder, List.cons_append, List.nil_append, List.cons_prefix_cons, true_and]
  exact h₃

/-- The moments of the launches. -/
def launchMoments (ms : List Moment) : List Moment := ms.filter fun m => m.event.call?.isSome

theorem launchMoments_visible (ms : List Moment) :
    launchMoments (ms.filter fun m => m.event.isVisible) = launchMoments ms := by
  rw [launchMoments, launchMoments, List.filter_filter]
  refine List.filter_congr fun m _ => ?_
  by_cases hcall : m.event.call?.isSome = true
  · simp [hcall, isVisible_of_call?_isSome hcall]
  · simp [hcall]

theorem launchMoments_cons_of_call {m : Moment} (hcall : m.event.call?.isSome = true)
    (ms : List Moment) : launchMoments (m :: ms) = m :: launchMoments ms :=
  List.filter_cons_of_pos hcall

theorem launchMoments_cons_of_createFile {m : Moment} {directory name : String}
    {answer : Except Fault String} (hevent : m.event = ⟨.createFile directory name, answer⟩)
    (ms : List Moment) : launchMoments (m :: ms) = launchMoments ms :=
  List.filter_cons_of_neg (by rw [hevent]; exact nofun)

theorem cons_of_map_prefix {m : Moment} {ms : List Moment} {e : Event} {es : List Event}
    (h : (m :: ms).map (·.event) <+: e :: es) : m.event = e ∧ ms.map (·.event) <+: es :=
  List.cons_prefix_cons.mp h

/-- Each file is made before the launches that it matters to: the first one before all of them, the
second one before all but the first. -/
theorem launches_after_files {ms : List Moment} {own : Bindings} {a₁ a₂ a₃ : Except Fault Reply}
    {P Q : Moment → Prop}
    (hshown : ms.map (·.event) <+: shownInOrder c driver args path source own a₁ a₂ a₃)
    (hP : ∀ m rest, m.event = ⟨.createFile path (source ++ ".bc"),
      .ok (bitcodeIn path source)⟩ → m :: rest <:+ ms → ∀ m' ∈ rest, P m')
    (hQ : ∀ m rest, m.event = ⟨.createFile path (source ++ ".opt.bc"),
      .ok (optimizedIn path source)⟩ → m :: rest <:+ ms → ∀ m' ∈ rest, Q m') :
    (∀ m ∈ launchMoments ms, P m) ∧ ∀ m ∈ (launchMoments ms).drop 1, Q m := by
  cases ms with
  | nil => exact ⟨List.forall_mem_nil _, List.forall_mem_nil _⟩
  | cons m₁ ms₁ =>
    obtain ⟨hfirst, hshown⟩ := cons_of_map_prefix hshown
    rw [launchMoments_cons_of_createFile hfirst]
    refine ⟨fun m hm => hP m₁ ms₁ hfirst List.suffix_rfl m (List.mem_filter.mp hm).1, ?_⟩
    cases ms₁ with
    | nil => exact List.forall_mem_nil _
    | cons m₂ ms₂ =>
      obtain ⟨hlaunch, hshown⟩ := cons_of_map_prefix hshown
      rw [launchMoments_cons_of_call (by rw [hlaunch]; rfl), List.drop_one, List.tail_cons]
      cases ms₂ with
      | nil => exact List.forall_mem_nil _
      | cons m₃ ms₃ =>
        obtain ⟨hsecond, -⟩ := cons_of_map_prefix hshown
        rw [launchMoments_cons_of_createFile hsecond]
        exact fun m hm => hQ m₃ ms₃ hsecond (List.suffix_append [m₁, m₂] _) m
          (List.mem_filter.mp hm).1

/-- The workspace of a run spells out where it is, its files can be opened in it, and the runner takes
nothing away and makes no links. -/
structure IsOrderly (path : String) (W : Location) (ms : List Moment) : Prop where
  noVariable : '$' ∉ path.toList
  made : ∀ m ∈ ms, ∀ answer, m.event = ⟨.makeWorkspace, answer⟩ →
    answer = .ok path ∧ m.after.files.IsDirect path W
  opens : ∀ m ∈ ms, ∀ directory name answer, m.event = ⟨.createFile directory name, answer⟩ →
    CanOpen m.before directory name
  keeps : ∀ m ∈ ms, m.event.call?.isSome → KeepsEntries m.before.files m.after.files

theorem IsOrderly.mono {ms ms' : List Moment} (h : IsOrderly path W ms) (hsub : ms' ⊆ ms) :
    IsOrderly path W ms' where
  noVariable := h.noVariable
  made m hm := h.made m (hsub hm)
  opens m hm := h.opens m (hsub hm)
  keeps m hm := h.keeps m (hsub hm)

/-- The two files are handed from one command to the next, under paths of their own in the workspace. -/
structure FilesMatch (c : Config) (driver : String) (args : Arguments) (path source : String) :
    Prop where
  emits : LastValue (driver :: StageCommand.emitBitcode args (bitcodeIn path source)) outputFlag
    (bitcodeIn path source)
  schedules : [bitcodeIn path source, outputFlag, optimizedIn path source] <:+
    c.optimizer :: StageCommand.schedulePasses c.optimizerArguments (bitcodeIn path source)
      (optimizedIn path source)
  builds : LastValue (driver :: StageCommand.buildBitcode args (optimizedIn path source)) compileFlag
    (optimizedIn path source)
  distinct : bitcodeIn path source ≠ optimizedIn path source
  spelled : bitcodeIn path source = path ++ "/" ++ (source ++ ".bc") ∧
    optimizedIn path source = path ++ "/" ++ (source ++ ".opt.bc")
  inside : Path.directory (bitcodeIn path source) = path ∧
    Path.directory (optimizedIn path source) = path

/-- The commands are launched in order, each with the files there that earlier stages have made. -/
structure FilesThere (c : Config) (driver : String) (args : Arguments) (path source : String)
    (ms : List Moment) : Prop where
  launched : calls (ms.map (·.event)) ≠ []
  inOrder : (calls (ms.map (·.event))).map (·.command) <+:
    commands c driver args (bitcodeIn path source) (optimizedIn path source)
  bitcode : ∀ m ∈ launchMoments ms, m.before.pathExists (bitcodeIn path source) = true
  optimized : ∀ m ∈ (launchMoments ms).drop 1, m.before.pathExists (optimizedIn path source) = true

theorem filesMatch_of_isDirect {fs : Files} (hd : fs.IsDirect path W) (hroot : W ≠ [])
    (hslash : Path.slash ∉ source.toList) (c : Config) (driver : String) (args : Arguments) :
    FilesMatch c driver args path source := by
  have hbitcode : IsPlain (source ++ ".bc") := isPlain_append hslash (by decide) (by decide)
  have hoptimized : IsPlain (source ++ ".opt.bc") := isPlain_append hslash (by decide) (by decide)
  have hlast : ∀ {flag path : String} {args : Arguments}, Path.isAbsolute path = true →
      Path.isAbsolute flag = false → flag ≠ StageCommand.unusedArgumentFlag →
      [flag, path, StageCommand.unusedArgumentFlag] <:+ args →
      LastValue (driver :: args) flag path := by
    intro flag path args habsolute hflag hunused hsuffix
    refine lastValue_of_suffix (hsuffix.trans (List.suffix_cons _ _)) ?_ (by simpa using hunused)
    rintro rfl
    exact absurd (habsolute.symm.trans hflag) (by decide)
  have habsolute := hd.isAbsolute_join hbitcode
  have habsolute' := hd.isAbsolute_join hoptimized
  refine ⟨hlast habsolute (by decide) (by decide)
      (StageCommand.suffix_emitBitcode (StageCommand.ne_empty_of_isAbsolute habsolute) args), ?_,
    hlast habsolute' (by decide) (by decide)
      (StageCommand.suffix_buildBitcode (StageCommand.ne_empty_of_isAbsolute habsolute') args), ?_,
    ⟨hd.join_eq_append hroot hbitcode, hd.join_eq_append hroot hoptimized⟩,
    hd.directory_join hroot hbitcode, hd.directory_join hroot hoptimized⟩
  · exact List.suffix_append (c.optimizer :: c.optimizerArguments) _
  · rw [bitcodeIn, optimizedIn, hd.join_eq_append hroot hbitcode, hd.join_eq_append hroot hoptimized]
    intro heq
    have hlength := congrArg String.length heq
    have hshort : ".bc".length = 3 := by decide
    have hlong : ".opt.bc".length = 7 := by decide
    simp only [String.length_append] at hlength
    omega

theorem calls_prefix {es : List Event} {own : Bindings} {a₁ a₂ a₃ : Except Fault Reply}
    (hlength : 2 ≤ es.length)
    (hshown : es <+: shownInOrder c driver args path source own a₁ a₂ a₃) :
    calls es ≠ [] ∧ (calls es).map (·.command) <+:
      commands c driver args (bitcodeIn path source) (optimizedIn path source) := by
  constructor
  · match es, hlength, hshown with
    | e₁ :: e₂ :: es, _, hshown =>
      obtain ⟨rfl, hrest⟩ := List.cons_prefix_cons.mp hshown
      obtain ⟨rfl, -⟩ := List.cons_prefix_cons.mp hrest
      exact nofun
  · exact (hshown.filterMap Event.call?).map Call.command

/-- The stages in a workspace that stands where its path says. -/
theorem hands_on_inside {h h' : Host} {ms : List Moment} (hreal : c.isDryRun = false)
    (hdollar : '$' ∉ source.toList) (hslash : Path.slash ∉ source.toList)
    (hdots : ∃ x ∈ source.toList, x ≠ '.') (hs : StandsAt h path W)
    (horderly : IsOrderly path W ms) (hp : Passes runner h ms h')
    (hin : ∀ m ∈ ms, InWorkspace path m.event.step)
    (hfollows : Follows (stages c driver source args path) (ms.map (·.event)) r) :
    FilesThere c driver args path source ms := by
  have hbitcodePlain : IsPlain (source ++ ".bc") := isPlain_append hslash (by decide) (by decide)
  have hoptimizedPlain : IsPlain (source ++ ".opt.bc") :=
    isPlain_append hslash (by decide) (by decide)
  have hstem : Path.stem (bitcodeIn path source) = source :=
    Path.stem_join hs.direct.ne_empty hslash hdots
  obtain ⟨hbefore, hpairs⟩ := hp.pairwise (R := fun h h' => KeepsEntries h.files h'.files)
    (fun h => .refl h.files) KeepsEntries.trans
    fun m hm => keepsEntries_of_outcome (hin m hm) (hp.outcome_of_mem hm) (horderly.keeps m hm)
  have hstands : ∀ m ∈ ms, StandsAt m.before path W :=
    fun m hm => hs.of_keepsEntries (hbefore m hm)
  have hanswers : AnswersJoined (ms.map (·.event)) := by
    intro directory name answer hmem hname
    obtain ⟨⟨before, event, after⟩, hm, rfl⟩ := List.mem_map.mp hmem
    obtain ⟨rfl, hplain⟩ := hin _ hm
    obtain ⟨-, files, -, ho⟩ :=
      (hstands _ hm).createFile hplain hname (horderly.opens _ hm _ _ _ rfl)
    exact congrArg Prod.fst ((hp.outcome_of_mem hm).symm.trans ho)
  -- what is made at one moment is there at all later ones
  have hthere : ∀ name answer m rest, IsPlain name → '$' ∉ name.toList →
      m.event = ⟨.createFile path name, answer⟩ →
      m :: rest <:+ ms.filter (fun m => m.event.isVisible) →
      ∀ m' ∈ rest, m'.before.pathExists (Path.join path name) = true := by
    rintro name answer ⟨before, -, after⟩ rest hname hvariable rfl hsuffix m' hm'
    have hsub := hsuffix.sublist.trans List.filter_sublist
    have hm := hsub.subset List.mem_cons_self
    have hlater := (List.pairwise_cons.mp (hpairs.sublist hsub)).1 m' hm'
    exact (hstands _ hm).pathExists hname hvariable (horderly.opens _ hm _ _ _ rfl)
      (hp.outcome_of_mem hm) (hstands m' (hsub.subset (List.mem_cons_of_mem _ hm'))) hlater
  have hvisible : (ms.filter fun m => m.event.isVisible).map (·.event) =
      (ms.map (·.event)).filter (·.isVisible) := by
    rw [List.filter_map]
    rfl
  obtain ⟨own, a₁, a₂, a₃, hlength, hshown⟩ := shows_stages_prefix hreal hdollar hstem
    (hanswers.mono List.filter_sublist.subset) hfollows.shows
  obtain ⟨hlaunched, hcommands⟩ := calls_prefix hlength hshown
  rw [calls_visible] at hlaunched hcommands
  obtain ⟨hbitcode, hoptimized⟩ := launches_after_files (hvisible ▸ hshown)
    (fun m rest hevent => hthere _ _ m rest hbitcodePlain (notMem_append hdollar (by decide))
      hevent)
    (fun m rest hevent => hthere _ _ m rest hoptimizedPlain
      (notMem_append hdollar (by decide)) hevent)
  rw [launchMoments_visible] at hbitcode hoptimized
  exact ⟨hlaunched, hcommands, hbitcode, hoptimized⟩

theorem launchMoments_append (ms ms' : List Moment) :
    launchMoments (ms ++ ms') = launchMoments ms ++ launchMoments ms' :=
  List.filter_append ms ms'

theorem launchMoments_of_records {ms : List Moment} (h : ∀ m ∈ ms, IsRecord m.event) :
    launchMoments ms = [] :=
  List.filter_eq_nil_iff.mpr fun m hm => by rw [call?_of_isRecord (h m hm)]; exact nofun

theorem Visit.Occurs.launchMoments_eq {v : Visit} {h : Host}
    (hv : v.Occurs runner c driver args h path r) :
    launchMoments v.moments = launchMoments v.inside := by
  have hmaking : launchMoments [v.making] = [] :=
    List.filter_cons_of_neg (by rw [hv.making]; exact nofun)
  have hreleasing : launchMoments [v.releasing] = [] :=
    List.filter_cons_of_neg (by rw [hv.releasing]; exact nofun)
  rw [Visit.moments, launchMoments_append, launchMoments_append, launchMoments_append,
    launchMoments_append, launchMoments_of_records hv.first, hmaking, hreleasing,
    launchMoments_of_records hv.last]
  exact List.append_nil _

/-- In a real run the stages hand on the same two files of the workspace, whatever the arguments, and
every command is launched with the files there that it needs. -/
theorem compile_hands_files_on {h : Host} (hreal : c.isDryRun = false)
    (hdollar : '$' ∉ (fileName args).toList) (hdots : ∃ x ∈ (fileName args).toList, x ≠ '.')
    (htree : h.files.IsTree)
    (horderly : IsOrderly path W ((compile c driver args).history runner h)) :
    FilesMatch c driver args path (fileName args) ∧
      FilesThere c driver args path (fileName args) ((compile c driver args).history runner h) := by
  have hslash := slash_notMem_fileName args
  have hp := passes_history runner (compile c driver args) h
  have hfollows : Follows (compile c driver args)
    (((compile c driver args).history runner h).map (·.event)) _ := follows_events runner _ h
  generalize (compile c driver args).history runner h = ms at horderly hp hfollows ⊢
  obtain ⟨-, m, hm, fault, hevent, -⟩ | ⟨v, path', rfl, hv⟩ := visit_of_passes_compile hp hfollows
  · exact nomatch (horderly.made m hm _ hevent).1
  · obtain ⟨hpath, hdirect⟩ := horderly.made v.making v.making_mem _ hv.making
    obtain rfl : path' = path := Except.ok.inj hpath
    obtain ⟨W', hmade⟩ := isMade_of_outcome hv.make
    have hstands := hmade.standsAt (htree.of_kept hv.before.kept) hdirect horderly.noVariable
    obtain ⟨hlaunched, hcommands, hbitcode, hoptimized⟩ :=
      hands_on_inside hreal hdollar hslash hdots hstands (horderly.mono v.inside_subset) hv.passes
        hv.inWorkspace hv.follows
    refine ⟨filesMatch_of_isDirect hdirect hstands.nonroot hslash c driver args, ?_⟩
    rw [← hv.calls_eq] at hlaunched hcommands
    rw [← hv.launchMoments_eq] at hbitcode hoptimized
    exact ⟨hlaunched, hcommands, hbitcode, hoptimized⟩

/-- A run is orderly on a machine that is ready for it, if the runner leaves the machine as it is. -/
theorem isOrderly_of_isReady {h : Host} {T : Location} (c : Config) (driver : String)
    (hready : IsReady h (fileName args) T) (hdetached : IsDetached runner) :
    IsOrderly (pathOf h (h.attempts + 1)) (T ++ [nameOf (h.attempts + 1)])
      ((compile c driver args).history runner h) := by
  have hp := passes_history runner (compile c driver args) h
  obtain ⟨hmade, hcreated⟩ := progresses_of_isReady c driver hready (hdetached.sameWays hp)
  refine ⟨hready.noVariable.1, hmade,
    fun m hm directory name answer hevent => (hcreated m hm directory name answer hevent).1,
    fun m hm hcall => ?_⟩
  obtain ⟨noted, hafter⟩ := hdetached.after_eq (hp.outcome_of_mem hm) hcall
  rw [hafter]
  exact .refl m.before.files

/-- The hypotheses hold of commands that all succeed. -/
theorem compile_hands_files_on_succeeding :
    IsOrderly "/tmp/conjunct00000001" ["tmp", "conjunct00000001"]
        ((compile oneDriverConfig "/bin/clang" simpleArguments).history succeeding oneDriver) ∧
      FilesMatch oneDriverConfig "/bin/clang" simpleArguments "/tmp/conjunct00000001" "a.c" ∧
      FilesThere oneDriverConfig "/bin/clang" simpleArguments "/tmp/conjunct00000001" "a.c"
        ((compile oneDriverConfig "/bin/clang" simpleArguments).history succeeding oneDriver) := by
  have hpath : pathOf oneDriver (oneDriver.attempts + 1) = "/tmp/conjunct00000001" := by
    decide +kernel
  have hname : nameOf (oneDriver.attempts + 1) = "conjunct00000001" := by decide +kernel
  have hsource : fileName simpleArguments = "a.c" := by decide +kernel
  have hready : IsReady oneDriver (fileName simpleArguments) ["tmp"] := hsource ▸ isReady_oneDriver
  have horderly := isOrderly_of_isReady oneDriverConfig "/bin/clang" hready isDetached_succeeding
  rw [hpath, hname] at horderly
  refine ⟨horderly, ?_⟩
  rw [← hsource]
  exact compile_hands_files_on rfl hready.noVariable.2 hready.notDots hready.tree horderly

end BitcodeWrapper.Pipeline
