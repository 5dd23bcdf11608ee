import BitcodeWrapper.Proofs.Pipeline.Modes
import BitcodeWrapper.Proofs.Pipeline.Progress

/-! Runs that end because the workspace or a file in it cannot be made. Nothing was launched before the
workspace and the first file; the second file is made after stage one, unless the run is dry. -/
namespace BitcodeWrapper.Pipeline
open BitcodeWrapper.Action Files Job Workspace

variable {runner : Runner} {c : Config} {driver source path stage : String} {args : Arguments}
  {command : List String} {environment : Option Bindings} {answer : Except Fault Reply}
  {cause : WorkspaceError} {isDryRun : Bool} {vs es : List Event} {r : Except Fault String}
  {h h' : Host} {ms : List Moment} {T W : Location}

/-- A workspace or a file was refused. -/
def refused (cause : WorkspaceError) : Fault := .failure (.workspace cause)

/-- The runner itself answered with such a refusal. -/
def Raised (cause : WorkspaceError) (cs : List Call) : Prop :=
  ∃ call ∈ cs, call.answer = .error (refused cause)

/-- No stage makes up a refusal. -/
theorem answer_of_settled (h : settled stage command answer = .error (refused cause)) :
    answer = .error (refused cause) := by
  rcases answer with (cause' | e | _ | _ | _) | reply
  · exact congrArg _ (Except.error.inj h)
  · cases h
  · cases h
  · cases h
  · cases h
  · simp only [settled] at h
    split at h <;> cases h

/-- The command of a stage raised the refusal that the stage ends in. -/
theorem raised_of_stageResult {object : String}
    (h : (stageResult isDryRun stage command answer).map (fun _ => object) =
      .error (refused cause)) :
    Raised cause (calls (stageEvents isDryRun command environment answer)) := by
  cases isDryRun with
  | true => cases h
  | false =>
    rcases hs : settled stage command answer with fault | output
    · rw [stageResult, if_neg Bool.false_ne_true, hs] at h
      obtain rfl : fault = refused cause := Except.error.inj h
      exact ⟨_, List.mem_cons_self, answer_of_settled hs⟩
    · rw [stageResult, if_neg Bool.false_ne_true, hs] at h
      cases h

/-- A stage that ends well launched its command, which returned zero, or the run is dry. -/
theorem calls_of_stageResult {object whole : String}
    (h : (stageResult isDryRun stage command answer).map (fun _ => object) = .ok whole) :
    (isDryRun = true ∧ calls (stageEvents isDryRun command environment answer) = []) ∨
      isDryRun = false ∧ ∃ call, calls (stageEvents isDryRun command environment answer) = [call] ∧
        call.command = command ∧ call.Exits 0 := by
  cases isDryRun with
  | true => exact .inl ⟨rfl, rfl⟩
  | false =>
    refine .inr ⟨rfl, ⟨command, environment, answer⟩, rfl, rfl, ?_⟩
    rcases answer with fault | ⟨code, output⟩
    · cases fault <;> cases h
    · by_cases hcode : code = 0
      · exact ⟨output, by rw [hcode]⟩
      · simp only [stageResult, settled, Bool.false_eq_true, ↓reduceIte, hcode] at h
        cases h

theorem refused_of_shows_emitBitcode
    (h : Shows (emitBitcode source driver args path isDryRun) vs (.error (refused cause))) :
    Raised cause (calls vs) ∨ calls vs = [] ∧ files vs = [] := by
  obtain ⟨fault, -, rfl, -⟩ | ⟨bitcode, answer, rfl, hresult⟩ := shows_emitBitcode_iff.mp h
  · exact .inr ⟨rfl, rfl⟩
  · exact .inl (raised_of_stageResult hresult.symm)

theorem refused_of_shows_schedulePasses {bitcode : String}
    (h : Shows (schedulePasses source c bitcode path isDryRun) vs (.error (refused cause))) :
    Raised cause (calls vs) ∨
      vs = [⟨.createFile path (Path.stem bitcode ++ ".opt.bc"), .error (refused cause)⟩] := by
  obtain ⟨fault, -, rfl, hresult⟩ | ⟨optimized, own, answer, rfl, hresult⟩ :=
    shows_schedulePasses_iff.mp h
  · rw [Except.error.inj hresult]
    exact .inr rfl
  · exact .inl (raised_of_stageResult hresult.symm)

theorem refused_of_shows_buildBitcode {optimized : String}
    (h : Shows (buildBitcode driver optimized args isDryRun) vs (.error (refused cause))) :
    Raised cause (calls vs) := by
  obtain ⟨-, -, hresult⟩ | ⟨-, answer, rfl, hresult⟩ := shows_buildBitcode_iff.mp h
  · exact nomatch hresult
  · exact raised_of_stageResult hresult.symm

/-- Stage one, when it ends well: its file, and its command unless the run is dry. -/
theorem made_of_shows_emitBitcode {bitcode : String}
    (h : Shows (emitBitcode source driver args path isDryRun) vs (.ok bitcode)) :
    files vs = [bitcode] ∧
      ((isDryRun = true ∧ calls vs = []) ∨
        isDryRun = false ∧ ∃ call, calls vs = [call] ∧
          call.command = driver :: StageCommand.emitBitcode args bitcode ∧ call.Exits 0) := by
  obtain ⟨fault, -, -, hresult⟩ | ⟨bitcode', answer, rfl, hresult⟩ := shows_emitBitcode_iff.mp h
  · exact nomatch hresult
  · obtain rfl := eq_of_map_eq_ok hresult.symm
    refine ⟨?_, calls_of_stageResult hresult.symm⟩
    rw [files_cons, files_stageEvents]
    rfl

/-- The launch that ends a dry run raised the refusal. -/
theorem refused_of_shows_ending {object : String}
    (h : Shows (if c.isDryRun = true then
        Job.debug "Running original clang during dry-run..." >>= fun _ =>
          runStage "running original clang during dry-run" (driver :: args) false none >>= fun _ =>
            pure object
      else pure object) vs (.error (refused cause))) : Raised cause (calls vs) := by
  cases hdry : c.isDryRun with
  | true =>
    simp only [hdry, ↓reduceIte, Job.debug, shows_log_bind_iff] at h
    obtain ⟨r', hstage, hresult⟩ := (shows_bind_quiet_iff (g := fun _ => object)
      fun _ _ _ => shows_pure_iff).mp h
    obtain ⟨answer, rfl, rfl⟩ := shows_runStage_iff.mp hstage
    exact raised_of_stageResult hresult.symm
  | false =>
    simp only [hdry, Bool.false_eq_true, ↓reduceIte] at h
    cases (shows_pure_iff.mp h).2

theorem Raised.ne_nil {cs : List Call} (h : Raised cause cs) : cs ≠ [] := by
  obtain ⟨call, hcall, -⟩ := h
  exact List.ne_nil_of_mem hcall

theorem Raised.of_subset {cs cs' : List Call} (h : Raised cause cs) (hsub : cs ⊆ cs') :
    Raised cause cs' := by
  obtain ⟨call, hcall, hanswer⟩ := h
  exact ⟨call, hsub hcall, hanswer⟩

/-- The one refusal that comes late is that of the second file of a real run. -/
structure RefusedLate (c : Config) (driver : String) (args : Arguments) (cause : WorkspaceError)
    (path bitcode : String) (call : Call) (es : List Event) : Prop where
  real : c.isDryRun = false
  files : files es = [bitcode]
  calls : calls es = [call]
  command : call.command = driver :: StageCommand.emitBitcode args bitcode
  exits : call.Exits 0
  second : ⟨.createFile path (Path.stem bitcode ++ ".opt.bc"), .error (refused cause)⟩ ∈ es

/-- A refusal is raised by the runner, or comes before any launch, or comes late. -/
theorem refused_of_shows_stages
    (h : Shows (stages c driver source args path) vs (.error (refused cause))) :
    Raised cause (calls vs) ∨ (calls vs = [] ∧ (c.isDryRun = true ∨ files vs = [])) ∨
      ∃ bitcode call, RefusedLate c driver args cause path bitcode call vs := by
  rw [stages] at h
  obtain ⟨fault, h₁, hfault⟩ | ⟨bitcode, vs₁, vs', rfl, h₁, h'⟩ := shows_bind_iff.mp h
  · rw [← Except.error.inj hfault] at h₁
    obtain hraised | ⟨hcalls, hfiles⟩ := refused_of_shows_emitBitcode h₁
    · exact .inl hraised
    · exact .inr (.inl ⟨hcalls, .inr hfiles⟩)
  rw [calls_append]
  obtain ⟨fault, h₂, hfault⟩ | ⟨optimized, vs₂, vs₃, rfl, h₂, h₃⟩ := shows_bind_iff.mp h'
  · rw [← Except.error.inj hfault] at h₂
    obtain hraised | rfl := refused_of_shows_schedulePasses h₂
    · exact .inl (hraised.of_subset (List.subset_append_right _ _))
    · obtain ⟨hfiles, ⟨hdry, hcalls⟩ | ⟨hreal, call, hcalls, hcommand, hexits⟩⟩ :=
        made_of_shows_emitBitcode h₁
      · exact .inr (.inl ⟨by rw [hcalls]; rfl, .inl hdry⟩)
      · refine .inr (.inr ⟨bitcode, call, hreal, ?_, ?_, hcommand, hexits, ?_⟩)
        · rw [files_append, hfiles]
          rfl
        · rw [calls_append, hcalls]
          rfl
        · exact List.mem_append_right _ (List.mem_singleton_self _)
  -- once both files are made only the runner is left
  refine .inl (Raised.of_subset ?_ (List.subset_append_right _ _))
  rw [calls_append]
  obtain ⟨fault, h₃, hfault⟩ | ⟨object, vs₃, vs₄, rfl, -, h₄⟩ := shows_bind_iff.mp h₃
  · rw [← Except.error.inj hfault] at h₃
    exact (refused_of_shows_buildBitcode h₃).of_subset (List.subset_append_right _ _)
  · rw [calls_append]
    exact ((refused_of_shows_ending h₄).of_subset (List.subset_append_right _ _)).of_subset
      (List.subset_append_right _ _)

theorem refused_of_shows_compile
    (h : Shows (compile c driver args) vs (.error (refused cause))) :
    Raised cause (calls vs) ∨ (calls vs = [] ∧ (c.isDryRun = true ∨ files vs = [])) ∨
      ∃ path bitcode call, RefusedLate c driver args cause path bitcode call vs := by
  obtain ⟨fault, -, rfl, -⟩ | ⟨path, vs', hstages, rfl⟩ := shows_compile_iff.mp h
  · exact .inr (.inl ⟨rfl, .inr rfl⟩)
  · have hcalls := calls_aroundWorkspace c.retainsWorkspace path vs'
    have hfiles := files_aroundWorkspace c.retainsWorkspace path vs'
    rw [hcalls, hfiles]
    obtain hraised | hearly | ⟨bitcode, call, hlate⟩ := refused_of_shows_stages hstages
    · exact .inl hraised
    · exact .inr (.inl hearly)
    · exact .inr (.inr ⟨path, bitcode, call, hlate.real, hfiles.trans hlate.files,
        hcalls.trans hlate.calls, hlate.command, hlate.exits,
        List.mem_cons_of_mem _ (List.mem_append_left _ hlate.second)⟩)

/-- A run that ends in a refusal launched nothing exactly if it is dry or made no file, and no launch
raised the refusal. Else stage one was done when the second file was refused. -/
theorem compile_refused_unlaunched_iff
    (hrefused : (outcome ((compile c driver args).run runner) h).1 = .error (refused cause)) :
    (calls ((compile c driver args).events runner h) = [] ↔
      (c.isDryRun = true ∨ files ((compile c driver args).events runner h) = []) ∧
        ¬ Raised cause (calls ((compile c driver args).events runner h))) ∧
    (calls ((compile c driver args).events runner h) ≠ [] →
      ¬ Raised cause (calls ((compile c driver args).events runner h)) →
      ∃ path bitcode call, RefusedLate c driver args cause path bitcode call
        ((compile c driver args).events runner h)) ∧
    (outcome ((compile c driver args).run runner) h).2.launches.map (·.command) =
      h.launches.map (·.command) ++
        (calls ((compile c driver args).events runner h)).map (·.command) := by
  have hfollows := follows_events runner (compile c driver args) h
  have hlaunches := (passes_history runner (compile c driver args) h).launches_eq
  rw [hrefused] at hfollows
  rw [← and_assoc]
  refine ⟨?_, hlaunches⟩
  have hcases := refused_of_shows_compile hfollows.shows
  rw [calls_visible, files_visible] at hcases
  obtain hraised | ⟨hcalls, hearly⟩ | ⟨path, bitcode, call, hlate⟩ := hcases
  · exact ⟨iff_of_false hraised.ne_nil fun h => h.2 hraised, fun _ hnot => (hnot hraised).elim⟩
  · exact ⟨iff_of_true hcalls ⟨hearly, fun hraised => hraised.ne_nil hcalls⟩,
      fun hnot => (hnot hcalls).elim⟩
  · have hcalls := (calls_visible _).symm.trans hlate.calls
    have hfiles := (files_visible _).symm.trans hlate.files
    refine ⟨iff_of_false (by rw [hcalls]; exact nofun) ?_, fun _ _ => ⟨path, bitcode, call,
      hlate.real, hfiles, hcalls, hlate.command, hlate.exits, (List.mem_filter.mp hlate.second).1⟩⟩
    rintro ⟨hdry | hnone, -⟩
    · exact nomatch hlate.real.symm.trans hdry
    · exact nomatch hfiles.symm.trans hnone

section longNames

/-- The name of a file that is longer than any entry's. -/
theorem createFile_of_longName {name : String} (hs : StandsAt h path W) (hname : IsPlain name)
    (hdollar : '$' ∉ name.toList) (hpath : hasNul path = false) (hnul : hasNul name = false)
    (hlong : longestName < name.utf8ByteSize) :
    ∃ cause, outcome (createFile path name) h = (.error (refused cause), h) := by
  refine createFile_of_not_canOpen ?_ fun hopen => ?_
  · rw [hs.direct.hasNul_join hs.nonroot hname, hpath, hnul]
    rfl
  · obtain ⟨⟨-, hsteps⟩, -⟩ := hs.createFile hname hdollar hopen
    have hshort := (hsteps name (List.mem_append_right _ (List.mem_singleton_self _))).short
    omega

/-- Stages whose second file is refused, after whatever they do before it. -/
theorem refused_of_answers {bitcode : String}
    (hfollows : Follows (stages c driver source args path) es r)
    (hfirst : ∀ answer, ⟨.createFile path (source ++ ".bc"), answer⟩ ∈ es → answer = .ok bitcode)
    (hsecond : ∀ answer, ⟨.createFile path (Path.stem bitcode ++ ".opt.bc"), answer⟩ ∈ es →
      ∃ cause, answer = .error (refused cause))
    (hzero : ∀ call ∈ calls es, call.Exits 0) :
    ∃ cause, r = .error (refused cause) ∧ (c.isDryRun = false → calls es ≠ []) := by
  rw [stages] at hfollows
  obtain ⟨fault, h₁, hfault⟩ | ⟨bitcode', es₁, es', rfl, h₁, h'⟩ := follows_bind_iff.mp hfollows
  · obtain ⟨fault', hmem, -, hresult⟩ | ⟨_, -, -, hresult⟩ := emitBitcode_of_exits hzero h₁
    · cases hfirst _ hmem
    · cases hresult
  rw [calls_append] at hzero
  obtain ⟨-, hcalls⟩ := made_of_shows_emitBitcode h₁.shows
  rw [calls_visible] at hcalls
  have hexits₁ := fun call hcall => hzero call (List.mem_append_left _ hcall)
  have hexits₂ := fun call hcall => hzero call (List.mem_append_right _ hcall)
  obtain ⟨_, -, -, hresult⟩ | ⟨bitcode'', hmem, -, hresult⟩ := emitBitcode_of_exits hexits₁ h₁
  · cases hresult
  obtain rfl : bitcode' = bitcode'' := Except.ok.inj hresult
  obtain rfl : bitcode' = bitcode := Except.ok.inj (hfirst _ (List.mem_append_left _ hmem))
  obtain ⟨fault, h₂, rfl⟩ | ⟨optimized, es₂, es₃, rfl, h₂, -⟩ := follows_bind_iff.mp h'
  · obtain ⟨fault', hlate, -, hresult⟩ | ⟨_, -, -, hresult⟩ :=
      schedulePasses_of_exits hexits₂ h₂
    · obtain ⟨cause, hcause⟩ := hsecond _ (List.mem_append_right _ hlate)
      refine ⟨cause, hresult.trans hcause, fun hreal => ?_⟩
      obtain ⟨hdry, -⟩ | ⟨-, call, hcall, -⟩ := hcalls
      · cases hreal.symm.trans hdry
      · rw [calls_append, hcall]
        exact List.cons_ne_nil _ _
    · cases hresult
  · rw [calls_append] at hexits₂
    obtain ⟨_, -, -, hresult⟩ | ⟨optimized', hlate, -, -⟩ :=
      schedulePasses_of_exits (fun call hcall => hexits₂ call (List.mem_append_left _ hcall)) h₂
    · cases hresult
    · obtain ⟨cause, hcause⟩ :=
        hsecond _ (List.mem_append_right _ (List.mem_append_left _ hlate))
      cases hcause

/-- A name to which the one ending can be added and the other one cannot. -/
structure IsLong (source path : String) (W : Location) : Prop where
  noVariable : '$' ∉ source.toList
  noNul : hasNul source = false
  notDots : ∃ x ∈ source.toList, x ≠ '.'
  fits : Fits (Path.join path (source ++ ".bc")) (W ++ [source ++ ".bc"])
  tooLong : longestName < (source ++ ".opt.bc").utf8ByteSize

/-- In the workspace of such a run the first file is made and the second one is refused. -/
theorem answers_of_isLong (hlong : IsLong source path W)
    (hslash : Path.slash ∉ source.toList) (hpath : hasNul path = false) (hs : StandsAt h path W)
    (hempty : ∀ name, h.files.get? (W ++ [name]) = none) (hp : Passes runner h ms h')
    (hin : ∀ m ∈ ms, InWorkspace path m.event.step)
    (hways : ∀ m ∈ ms, m.event.call?.isSome → m.before.SameWays m.after) :
    (∀ answer, ⟨.createFile path (source ++ ".bc"), answer⟩ ∈ ms.map (·.event) →
      answer = .ok (Path.join path (source ++ ".bc"))) ∧
    ∀ answer, ⟨.createFile path (source ++ ".opt.bc"), answer⟩ ∈ ms.map (·.event) →
      ∃ cause, answer = .error (refused cause) := by
  have hsame := sameWays_inside hp hin hways
  have hdollar : ∀ extension : String, '$' ∉ extension.toList →
      '$' ∉ (source ++ extension).toList := fun _ h => notMem_append hlong.noVariable h
  have hnul : ∀ extension, hasNul extension = false → hasNul (source ++ extension) = false := by
    intro extension h
    rw [hasNul_append, hlong.noNul, h]
    rfl
  constructor
  · intro answer hmem
    obtain ⟨⟨before, event, after⟩, hm, rfl⟩ := List.mem_map.mp hmem
    have hstands := hs.of_sameWays (hsame _ hm)
    have hfree : before.files.get? (W ++ [source ++ ".bc"]) ≠ some .directory := fun hdirectory =>
      nomatch (hempty (source ++ ".bc")).symm.trans ((hsame _ hm).keptFrom _ _ hdirectory trivial)
    have hname := isPlain_append hslash (show Path.slash ∉ ".bc".toList by decide) (by decide)
    have hopen := hstands.canOpen hname hlong.fits hpath (hnul ".bc" (by decide)) hfree
    obtain ⟨-, files, -, ho⟩ := hstands.createFile hname (hdollar ".bc" (by decide)) hopen
    exact congrArg Prod.fst ((hp.outcome_of_mem hm).symm.trans ho)
  · intro answer hmem
    obtain ⟨⟨before, event, after⟩, hm, rfl⟩ := List.mem_map.mp hmem
    have hname := isPlain_append hslash (show Path.slash ∉ ".opt.bc".toList by decide) (by decide)
    obtain ⟨cause, ho⟩ := createFile_of_longName (hs.of_sameWays (hsame _ hm)) hname
      (hdollar ".opt.bc" (by decide)) hpath (hnul ".opt.bc" (by decide)) hlong.tooLong
    exact ⟨cause, congrArg Prod.fst ((hp.outcome_of_mem hm).symm.trans ho)⟩

/-- On a machine that is ready for shorter names such a run is refused its second file. A real run has
launched stage one by then. -/
theorem compile_refused_of_isLong {short : String} (hready : IsReady h short T)
    (hlong : IsLong (fileName args) (pathOf h (h.attempts + 1)) (T ++ [nameOf (h.attempts + 1)]))
    (hdetached : IsDetached runner)
    (hzero : ∀ command environment h, ∃ output,
      (outcome (runner command environment) h).1 = .ok ⟨0, output⟩) :
    ∃ cause, (outcome ((compile c driver args).run runner) h).1 = .error (refused cause) ∧
      (c.isDryRun = false → calls ((compile c driver args).events runner h) ≠ []) ∧
      ∀ call ∈ calls ((compile c driver args).events runner h), call.Exits 0 := by
  have hp := passes_history runner (compile c driver args) h
  have hfollows : Follows (compile c driver args)
    (((compile c driver args).history runner h).map (·.event)) _ := follows_events runner _ h
  have hways := hdetached.sameWays hp
  have hexits : ∀ call ∈ calls ((compile c driver args).events runner h), call.Exits 0 := by
    intro call hcall
    obtain ⟨before, hanswer⟩ := hp.answer_of_mem_calls hcall
    obtain ⟨output, houtput⟩ := hzero call.command call.environment before
    exact ⟨output, hanswer.symm.trans houtput⟩
  rw [events] at hexits ⊢
  generalize (compile c driver args).history runner h = ms at hp hfollows hways hexits ⊢
  obtain ⟨v, rfl, hv, hstands, hempty⟩ := visit_of_isReady hready hp hfollows
  have hslash := slash_notMem_fileName args
  obtain ⟨hfirst, hsecond⟩ := answers_of_isLong hlong hslash hready.noNul.1 hstands hempty hv.passes
    hv.inWorkspace fun m hm => hways m (v.inside_subset hm)
  rw [hv.calls_eq] at hexits ⊢
  have hstem := Path.stem_join hstands.direct.ne_empty hslash hlong.notDots
  obtain ⟨cause, hresult, hcalls⟩ :=
    refused_of_answers hv.follows hfirst (by rwa [hstem]) hexits
  exact ⟨cause, hresult, hcalls, hexits⟩

/-- A source file with a name of `n + 2` bytes. -/
def longName (n : Nat) : String := String.ofList (List.replicate n 'a') ++ ".c"

def longArguments (n : Nat) : Arguments := ["-c", longName n, "-o", "a.o"]

theorem toList_longName (n : Nat) : (longName n).toList = List.replicate n 'a' ++ ['.', 'c'] := by
  rw [longName, String.toList_append, String.toList_ofList]
  rfl

theorem notMem_longName {ch : Char} (h : ch ∉ ['a', '.', 'c']) (n : Nat) :
    ch ∉ (longName n).toList := by
  rw [toList_longName]
  intro hmem
  rcases List.mem_append.mp hmem with hmem | hmem
  · exact h (List.eq_of_mem_replicate hmem ▸ List.mem_cons_self)
  · exact h (List.mem_cons_of_mem _ hmem)

theorem utf8ByteSize_replicate (n : Nat) :
    (String.ofList (List.replicate n 'a')).utf8ByteSize = n := by
  induction n with
  | zero => rfl
  | succ n ih =>
    rw [List.replicate_succ', String.ofList_append, String.utf8ByteSize_append, ih]
    rfl

theorem utf8ByteSize_longName (n : Nat) (extension : String) :
    (longName n ++ extension).utf8ByteSize = n + 2 + extension.utf8ByteSize := by
  rw [longName, String.utf8ByteSize_append, String.utf8ByteSize_append, utf8ByteSize_replicate]
  rfl

theorem fileName_longArguments (n : Nat) : fileName (longArguments n) = longName n := by
  have hne : longName n ≠ "" := by
    intro h
    have hlist := toList_longName n
    rw [h] at hlist
    simp at hlist
  have hbase : Path.base (longName n) = longName n :=
    Path.base_of_notMem (notMem_longName (by decide) n)
  have hvalue : (longArguments n).valueOf SourceFile.compileFlag = longName n := rfl
  have hsource : (SourceFile.ofArguments (longArguments n)).name = longName n := by
    rw [SourceFile.ofArguments, hvalue, if_pos (bne_iff_ne.mpr hne)]
    exact hbase
  rw [fileName, hsource, if_neg hne]

theorem isLong_longName {n : Nat} (hshort : n ≤ 250) (hlong : 246 < n) :
    IsLong (longName n) "/tmp/conjunct00000001" ["tmp", "conjunct00000001"] where
  noVariable := notMem_longName (by decide) n
  noNul := by
    have hnul := notMem_longName (show '\x00' ∉ ['a', '.', 'c'] by decide) n
    simpa [hasNul] using hnul
  notDots := ⟨'c', by rw [toList_longName]; simp, by decide⟩
  fits := by
    have hplain : IsPlain (longName n ++ ".bc") :=
      isPlain_append (notMem_longName (by decide) n) (by decide) (by decide)
    have hsize := utf8ByteSize_longName n ".bc"
    have hextension : ".bc".utf8ByteSize = 3 := by decide +kernel
    constructor
    · have hjoin := Path.utf8ByteSize_join_le "/tmp/conjunct00000001" (longName n ++ ".bc")
      have hpath : "/tmp/conjunct00000001".utf8ByteSize = 21 := by decide +kernel
      have hlimit : longestPath = 4095 := rfl
      omega
    · have hlimit : longestName = 255 := rfl
      refine List.forall_mem_append.mpr ⟨by decide +kernel, List.forall_mem_singleton.mpr ?_⟩
      exact ⟨hplain.notBlank, hplain.ne_dots, by omega⟩
  tooLong := by
    have hextension : ".opt.bc".utf8ByteSize = 7 := by decide +kernel
    have hlimit : longestName = 255 := rfl
    rw [utf8ByteSize_longName]
    omega

theorem compile_longArguments (c : Config) :
    ∃ cause, (outcome ((compile c "/bin/clang" (longArguments 248)).run succeeding) oneDriver).1 =
        .error (refused cause) ∧
      (c.isDryRun = false →
        calls ((compile c "/bin/clang" (longArguments 248)).events succeeding oneDriver) ≠ []) ∧
      ∀ call ∈ calls ((compile c "/bin/clang" (longArguments 248)).events succeeding oneDriver),
        call.Exits 0 := by
  have hpath : pathOf oneDriver (oneDriver.attempts + 1) = _ := pathOf_fresh _ _
  have hname : nameOf (oneDriver.attempts + 1) = _ := nameOf_fresh _ _
  refine compile_refused_of_isLong isReady_oneDriver ?_ isDetached_succeeding
    fun _ _ _ => ⟨[], rfl⟩
  rw [hpath, hname, fileName_longArguments]
  exact isLong_longName (by decide) (by decide)

theorem not_raised_of_exits {cs : List Call} (hexits : ∀ call ∈ cs, call.Exits 0) :
    ¬ Raised cause cs := by
  rintro ⟨call, hcall, hanswer⟩
  obtain ⟨output, hexit⟩ := hexits call hcall
  exact nomatch hexit.symm.trans hanswer

/-- A dry run has launched nothing when its second file is refused. -/
theorem compile_refused_unlaunched_dry :
    ∃ cause,
      (outcome ((compile { oneDriverConfig with isDryRun := true } "/bin/clang"
        (longArguments 248)).run succeeding) oneDriver).1 = .error (refused cause) ∧
      calls ((compile { oneDriverConfig with isDryRun := true } "/bin/clang"
        (longArguments 248)).events succeeding oneDriver) = [] := by
  obtain ⟨cause, hrefused, -, hexits⟩ :=
    compile_longArguments { oneDriverConfig with isDryRun := true }
  exact ⟨cause, hrefused,
    (compile_refused_unlaunched_iff hrefused).1.mpr ⟨.inl rfl, not_raised_of_exits hexits⟩⟩

/-- A real run has launched stage one by then. -/
theorem compile_refused_after_launch :
    (longArguments 248).has SourceFile.compileFlag = true ∧
      ∃ cause,
        (outcome ((compile oneDriverConfig "/bin/clang" (longArguments 248)).run succeeding)
          oneDriver).1 = .error (refused cause) ∧
        calls ((compile oneDriverConfig "/bin/clang" (longArguments 248)).events succeeding
          oneDriver) ≠ [] := by
  obtain ⟨cause, hrefused, hlaunched, -⟩ := compile_longArguments oneDriverConfig
  exact ⟨rfl, cause, hrefused, hlaunched rfl⟩

end longNames

end BitcodeWrapper.Pipeline
