import BitcodeWrapper.Proofs.Compiler.Aside
import BitcodeWrapper.Proofs.Sanity.Escape

/-! Whether the sanity check tries what runs. Without a configuration the check looks for the drivers on its own
and leaves it to the operating system to search for them. It tries the drivers that run, unless one was moved
aside or the first one on the search list cannot be started. -/
namespace BitcodeWrapper.Sanity
open BitcodeWrapper.Action Compiler

variable {h h' : Host} {name driver path platform c cpp : String} {named : Option String}

/-- The command that asks a driver for its version. -/
def query (driver : String) : List String := [driver, Probe.versionSwitch]

/-- The file that is launched when a driver is asked for its version. -/
def launched? (h : Host) (driver : String) : Option String :=
  if Host.isPassable (query driver) h.environment = true then h.program? (query driver) else none

def CanLaunch (h : Host) (driver : String) : Prop :=
  ∃ finished h', outcome (spawn (query driver) none) h = (.ok finished, h')

theorem canLaunch_iff : CanLaunch h driver ↔ (launched? h driver).isSome = true := by
  cases hpass : Host.isPassable (query driver) h.environment with
  | false =>
    have hspawn : outcome (spawn (query driver) none) h = (.error .invalidValue, h) :=
      outcome_spawn_of_not_isPassable hpass
    rw [launched?, hpass]
    exact iff_of_false (fun ⟨_, _, hok⟩ => nomatch hspawn.symm.trans hok) nofun
  | true =>
    rw [launched?, if_pos hpass]
    obtain ⟨hsome, finished, hspawn⟩ | ⟨hnone, e, hspawn⟩ := cases_of_program hpass
    · exact iff_of_true ⟨finished, _, hspawn⟩ hsome
    · exact iff_of_false (fun ⟨_, _, hok⟩ => nomatch hspawn.symm.trans hok) (Bool.eq_false_iff.mp hnone)

/-- A path stands for itself. -/
theorem launched?_of_slash (hslash : Path.slash ∈ driver.toList) :
    launched? h driver = none ∨ launched? h driver = some driver := by
  rw [launched?, query, Host.program?_of_slash hslash]
  split
  · split
    · exact .inr rfl
    · exact .inl rfl
  · exact .inl rfl

/-- Where the environment cannot be passed on nothing is launched. -/
theorem launched?_of_not_isPassable (hpass : Host.isPassable [] h.environment = false) (driver : String) :
    launched? h driver = none := by
  refine if_neg fun hpassable => ?_
  simp only [Host.isPassable, List.any_nil, Bool.not_false, Bool.true_and, Bool.and_eq_true] at hpass hpassable
  exact absurd (hpass.symm.trans hpassable.2) (by decide)

theorem launched?_of_isPassable (hpass : Host.isPassable [] h.environment = true)
    (hnul : Files.hasNul driver = false) : launched? h driver = h.program? (query driver) := by
  have hswitch : Files.hasNul Probe.versionSwitch = false := by decide
  refine if_pos ?_
  simp only [Host.isPassable, List.any_nil, Bool.not_false, Bool.true_and] at hpass
  simp only [Host.isPassable, query, List.any_cons, List.any_nil, hnul, hswitch, Bool.or_false, Bool.not_false,
    Bool.true_and, hpass]

/-- The directory that the drivers are in by default. -/
def defaultDirectory? (h : Host) : Option String :=
  (h.environment.get? defaultDirectoryVariable).filter (· != "")

/-- The driver of this name that the check tries. -/
def tried (h : Host) (name : String) : String :=
  match defaultDirectory? h with
  | some directory => Path.join directory name
  | none => name

theorem unconfigured_eq (h : Host) : unconfigured h = (tried h "clang", tried h "clang++") := by
  rw [unconfigured, defaultCompilers, tried, tried, defaultDirectory?]
  cases (h.environment.get? defaultDirectoryVariable).filter (· != "") <;> rfl

/-- The ways in which the program that the check launches is not the one that runs. -/
inductive Diverges (h : Host) (name driver : String) : Prop
  | movedAside {directory : String} (isSet : defaultDirectory? h = some directory)
      (isAside : driver = tried h name ++ asideSuffix)
      (starts : (launched? h (tried h name)).isSome = true ∨ (launched? h driver).isSome = true) :
      Diverges h name driver
  | passedOver {path : String} (notSet : defaultDirectory? h = none) (elsewhere : driver ≠ name)
      (refused : h.startsFor (query name) driver = false) (later : launched? h name = some path) :
      Diverges h name driver
  | crowded (notSet : defaultDirectory? h = none) (found : launched? h name = some driver)
      (refused : launched? h driver = none) : Diverges h name driver

/-- The check launches the program that runs. -/
def TriesWhatRuns (h : Host) (name driver : String) : Prop :=
  launched? h (tried h name) = launched? h driver

theorem diverges_iff_of_set {directory : String} (hset : defaultDirectory? h = some directory) :
    Diverges h name driver ↔ driver = tried h name ++ asideSuffix ∧
      ((launched? h (tried h name)).isSome = true ∨ (launched? h driver).isSome = true) := by
  constructor
  · intro hdiverges
    cases hdiverges with
    | movedAside _ isAside starts => exact ⟨isAside, starts⟩
    | passedOver notSet | crowded notSet => exact nomatch hset.symm.trans notSet
  · rintro ⟨isAside, starts⟩
    exact .movedAside hset isAside starts

theorem diverges_iff_of_unset (hunset : defaultDirectory? h = none) :
    Diverges h name driver ↔
      (driver ≠ name ∧ h.startsFor (query name) driver = false ∧ ∃ path, launched? h name = some path) ∨
        launched? h name = some driver ∧ launched? h driver = none := by
  constructor
  · intro hdiverges
    cases hdiverges with
    | movedAside isSet => exact nomatch hunset.symm.trans isSet
    | passedOver _ elsewhere refused later => exact .inl ⟨elsewhere, refused, _, later⟩
    | crowded _ found refused => exact .inr ⟨found, refused⟩
  · rintro (⟨elsewhere, refused, path, later⟩ | ⟨found, refused⟩)
    · exact .passedOver hunset elsewhere refused later
    · exact .crowded hunset found refused

/-- What an environment binds can be passed on. -/
theorem hasNul_of_get? {environment : Bindings} {value : String} (hpass : Host.isPassable [] environment = true)
    (hget : environment.get? name = some value) : Files.hasNul value = false := by
  obtain ⟨before, after, rfl, -⟩ := List.lookup_eq_some_iff.mp hget
  simp only [Host.isPassable, List.all_append, List.all_cons, Bool.and_eq_true, Bool.not_eq_true'] at hpass
  obtain ⟨-, -, ⟨⟨-, hvalue⟩, -⟩, -⟩ := hpass
  exact hvalue

theorem hasNul_join {front : String} (hfront : Files.hasNul front = false) (hname : Files.hasNul name = false) :
    Files.hasNul (Path.join front name) = false := by
  simp only [Files.hasNul, List.contains_eq_mem, decide_eq_false_iff_not] at hfront hname ⊢
  intro hmem
  obtain h | h | h := Path.mem_of_mem_join hmem
  · exact hfront h
  · exact absurd h (by decide)
  · exact hname h

/-- The files that a name may stand for can be passed on. -/
theorem hasNul_of_mem_programPaths (hpass : Host.isPassable [] h.environment = true)
    (hslash : Path.slash ∉ name.toList) (hname : Files.hasNul name = false)
    (hmem : path ∈ Host.programPaths h.environment name) : Files.hasNul path = false := by
  rw [Host.programPaths_of_notMem hslash] at hmem
  obtain ⟨directory, hdirectory, rfl⟩ := List.mem_map.mp hmem
  refine hasNul_join ?_ hname
  have hlist : Files.hasNul ((h.environment.get? Host.searchVariable).getD Host.standardSearch) = false := by
    cases hget : h.environment.get? Host.searchVariable with
    | none => decide
    | some list => exact hasNul_of_get? hpass hget
  obtain ⟨segment, hsegment, rfl⟩ := List.mem_map.mp hdirectory
  simp only [Files.hasNul, List.contains_eq_mem, decide_eq_false_iff_not, String.toList_ofList] at hlist ⊢
  exact fun hnul => hlist (Path.mem_of_mem_cutAt hsegment hnul)

/-- Before the first program on the search list nothing can be started. -/
theorem program?_of_findProgram? (hpass : Host.isPassable [] h.environment = true)
    (hslash : Path.slash ∉ name.toList) (hname : Files.hasNul name = false) {args : List String}
    (hfound : h.findProgram? name = some driver) : driver ∈ Host.programPaths h.environment name ∧
      (h.startsFor (name :: args) driver = true → h.program? (name :: args) = some driver) := by
  have hfind : (Host.programPaths h.environment name).find? (h.files.isProgram h.here) = some driver := by
    rw [Host.findProgram?_of_notMem hslash] at hfound
    split at hfound
    · exact nomatch hfound
    · exact hfound
  refine ⟨List.mem_of_find?_eq_some hfind, fun hstarts => ?_⟩
  obtain ⟨-, before, after, hsplit, hbefore⟩ := List.find?_eq_some_iff_append.mp hfind
  rw [Host.program?, List.headD_cons, List.find?_eq_some_iff_append]
  refine ⟨hstarts, before, after, hsplit, fun path hmem => ?_⟩
  have hnul := hasNul_of_mem_programPaths hpass hslash hname (hsplit ▸ List.mem_append_left _ hmem)
  have hprogram := hbefore path hmem
  rw [Bool.not_eq_eq_eq_not, Bool.not_true] at hprogram ⊢
  exact Bool.eq_false_iff.mpr fun hok =>
    absurd ((Files.isProgram_of_start hnul hok).symm.trans hprogram) (by decide)

/-- A driver in the default directory is a path, and so is one that was moved aside. -/
theorem slash_mem_tried {directory : String} (hset : defaultDirectory? h = some directory) (name : String) :
    Path.slash ∈ (tried h name).toList := by
  have hne : directory ≠ "" := by
    have hfilter := Option.filter_eq_some_iff.mp hset
    simpa using hfilter.2
  rw [tried, hset]
  exact Path.slash_mem_join hne name

theorem exists_located (hout : (outcome (locate none name) h).1 = .ok driver) :
    ∃ route front, Located h none name route front ∧ driver = preferred h route front := by
  obtain ⟨route, front, hl⟩ | ⟨h', -, ho⟩ := located_or_refused h none name
  · obtain ⟨h', -, ho⟩ := outcome_locate_of_located hl
    rw [ho] at hout
    exact ⟨route, front, hl, (Except.ok.inj hout).symm⟩
  · rw [ho] at hout
    exact nomatch hout

/-- In the default directory the check and a run look for different files if one was moved aside. -/
theorem triesWhatRuns_iff_of_set {directory : String} (hset : defaultDirectory? h = some directory)
    (hdriver : driver = tried h name ∨ driver = tried h name ++ asideSuffix) :
    TriesWhatRuns h name driver ↔ ¬ Diverges h name driver := by
  rw [diverges_iff_of_set hset, TriesWhatRuns]
  obtain rfl | haside := hdriver
  · exact iff_of_true rfl fun hdiverges => append_asideSuffix_ne _ hdiverges.1.symm
  · have hslash := slash_mem_tried hset name
    have hslash' : Path.slash ∈ driver.toList := by
      rw [haside, String.toList_append]
      exact List.mem_append_left _ hslash
    have hne : tried h name ≠ driver := fun heq => append_asideSuffix_ne _ (haside.symm.trans heq.symm)
    rw [and_iff_right haside]
    obtain hfront | hfront := launched?_of_slash (h := h) hslash <;>
      obtain hlaunched | hlaunched := launched?_of_slash (h := h) hslash' <;> simp [hfront, hlaunched, hne]

theorem slash_mem_of_mem_programPaths (hslash : Path.slash ∉ name.toList) {environment : Bindings}
    (hmem : path ∈ Host.programPaths environment name) (hne : path ≠ name) : Path.slash ∈ path.toList := by
  rw [Host.programPaths_of_notMem hslash] at hmem
  obtain ⟨directory, -, rfl⟩ := List.mem_map.mp hmem
  refine Path.slash_mem_join (fun hempty => hne ?_) name
  subst hempty
  apply String.toList_injective
  rw [Path.join, Path.joinChars, if_neg (Path.head?_ne_slash hslash), String.toList_ofList]
  rfl

/-- On the search list the first program that starts is launched, and it is the one found if that starts. -/
theorem triesWhatRuns_iff_of_passable (hpass : Host.isPassable [] h.environment = true)
    (hslash : Path.slash ∉ name.toList) (hname : Files.hasNul name = false)
    (hunset : defaultDirectory? h = none) (hfound : h.findProgram? name = some driver) :
    TriesWhatRuns h name driver ↔ ¬ Diverges h name driver := by
  obtain ⟨hmem, hfirst⟩ : driver ∈ Host.programPaths h.environment name ∧
      (h.startsFor (query name) driver = true → h.program? (query name) = some driver) :=
    program?_of_findProgram? hpass hslash hname hfound
  have htried : tried h name = name := by rw [tried, hunset]
  rw [diverges_iff_of_unset hunset, TriesWhatRuns, htried]
  by_cases heq : driver = name
  · subst heq
    refine iff_of_true rfl ?_
    rintro (⟨elsewhere, -⟩ | ⟨found, refused⟩)
    · exact elsewhere rfl
    · exact nomatch found.symm.trans refused
  rw [← launched?_of_isPassable hpass hname] at hfirst
  have hdriver : launched? h driver = if h.startsFor (query driver) driver = true then some driver else none :=
    (launched?_of_isPassable hpass (hasNul_of_mem_programPaths hpass hslash hname hmem)).trans
      (Host.program?_of_slash (slash_mem_of_mem_programPaths hslash hmem heq) _)
  have hshorter : h.startsFor (query driver) driver = true → h.startsFor (query name) driver = true := by
    rw [Host.programPaths_of_notMem hslash] at hmem
    obtain ⟨directory, -, rfl⟩ := List.mem_map.mp hmem
    exact Host.startsFor_mono (Path.utf8ByteSize_name_le_join directory name)
  cases hstarts : h.startsFor (query name) driver with
  | true =>
    -- Under the longer name the driver may still be too much to pass on.
    rw [hfirst hstarts]
    cases hown : h.startsFor (query driver) driver with
    | true => simp [hdriver, hown]
    | false => simp [hdriver, hown]
  | false =>
    have hown : h.startsFor (query driver) driver = false :=
      Bool.eq_false_iff.mpr fun hown => absurd (hstarts.symm.trans (hshorter hown)) (by decide)
    cases hlater : launched? h name with
    | none => simp [hdriver, hown]
    | some path => simp [hdriver, hown, heq]

theorem triesWhatRuns_iff_of_search (hslash : Path.slash ∉ name.toList) (hname : Files.hasNul name = false)
    (hunset : defaultDirectory? h = none) (hfound : h.findProgram? name = some driver) :
    TriesWhatRuns h name driver ↔ ¬ Diverges h name driver := by
  cases hpass : Host.isPassable [] h.environment with
  | true => exact triesWhatRuns_iff_of_passable hpass hslash hname hunset hfound
  | false =>
    have hnone := launched?_of_not_isPassable hpass
    rw [diverges_iff_of_unset hunset, TriesWhatRuns, hnone, hnone]
    simp [hnone]

/-- The check tries the driver that runs unless the two searches diverge. -/
theorem triesWhatRuns_iff (hslash : Path.slash ∉ name.toList) (hname : Files.hasNul name = false)
    (hlocate : (outcome (locate none name) h).1 = .ok driver) :
    TriesWhatRuns h name driver ↔ ¬ Diverges h name driver := by
  obtain ⟨route, front, hlocated, hpreferred⟩ := exists_located hlocate
  cases hlocated with
  | file given | directory given => exact nomatch given
  | @defaultDirectory directory _ isSet =>
    have htried : tried h name = Path.join directory name := by
      rw [tried, defaultDirectory?, isSet]
    refine triesWhatRuns_iff_of_set isSet ?_
    rw [htried, hpreferred, preferred]
    split
    · exact .inr rfl
    · exact .inl rfl
  | search _ notSet found =>
    rw [preferred, if_neg fun hroute => hroute.1 rfl] at hpreferred
    exact triesWhatRuns_iff_of_search hslash hname notSet (hpreferred ▸ found)

/-- One of the two drivers is enough. The first one leaves the machine to the second as it was, or it is
the one that is enough. -/
theorem isUsable_of_checkCompilers {isUsable : Bool}
    (hout : outcome (checkCompilers c cpp) h = (.ok isUsable, h')) :
    isUsable = true ↔ CanLaunch h c ∨ CanLaunch h cpp := by
  rw [checkCompilers, LooseText.handed_ofString, LooseText.handed_ofString] at hout
  obtain ⟨cFinding, h₁, hc, hout⟩ := outcome_bind_eq_ok_iff.mp hout
  obtain ⟨cppFinding, h₂, hcpp, hout⟩ := outcome_bind_eq_ok_iff.mp hout
  obtain ⟨-, h₃, -, hout⟩ := outcome_bind_eq_ok_iff.mp hout
  obtain ⟨-, h₄, -, hout⟩ := outcome_bind_eq_ok_iff.mp hout
  have husable : isUsable = (cFinding.isUsable || cppFinding.isUsable) := by
    split at hout <;> dsimp only at hout
    · obtain ⟨-, h₅, -, hverdict⟩ := outcome_bind_eq_ok_iff.mp hout
      cases hverdict
      rfl
    · cases hout
      rfl
  have hfinds := outcome_tryExecutable_eq_ok_iff.mp hc
  have hfinds' := outcome_tryExecutable_eq_ok_iff.mp hcpp
  rw [husable, Bool.or_eq_true, hfinds.isUsable_iff]
  by_cases hlaunch : CanLaunch h c
  · exact iff_of_true (.inl hlaunch) (.inl hlaunch)
  · have hno : cFinding.isUsable = false := Bool.eq_false_iff.mpr (hlaunch ∘ hfinds.isUsable_iff.mp)
    obtain rfl := hfinds.eq_of_not_isUsable hno
    rw [hfinds'.isUsable_iff]
    exact Iff.rfl

theorem canLaunch_introduced_iff : CanLaunch (introduced h) driver ↔ CanLaunch h driver := by
  obtain ⟨output, hintroduced⟩ := exists_introduced_eq h
  rw [canLaunch_iff, canLaunch_iff, hintroduced]
  rfl

theorem outcome_check_of_unnamed (hsupported : isSupported platform = true)
    (hunnamed : named.filter (· != "") = none) (h : Host) : outcome (check platform named) h =
      outcome (checkCompilers (unconfigured h).1 (unconfigured h).2 >>= fun isSane => pure (exitCode isSane))
        (introduced h) := by
  rw [check, checkWith, outcome_bind, alwaysAnswers_reportRelease.outcome_eq]
  dsimp only
  rw [outcome_bind, alwaysAnswers_reportLogging.outcome_eq]
  simp only [hsupported, hunnamed, Bool.not_true, Bool.false_eq_true, ↓reduceIte]
  rw [outcome_bind, outcome_printLine]
  change outcome (checkDefaultCompilers >>= fun isSane => pure (exitCode isSane)) (introduced h) = _
  rw [outcome_bind, outcome_checkDefaultCompilers, unconfigured_introduced, outcome_bind]

/-- The check ends with 0 or with 1 according to what holds. -/
structure EndsAs (platform : String) (named : Option String) (h : Host) (holds : Prop) : Prop where
  sane : (∃ h', outcome (check platform named) h = (.ok 0, h')) ↔ holds
  insane : (∃ h', outcome (check platform named) h = (.ok 1, h')) ↔ ¬ holds

theorem endsAs_tried (hsupported : isSupported platform = true) (hunnamed : named.filter (· != "") = none)
    (hends : ∀ fault, ¬ CheckEscapes Config.reader platform named h fault) :
    EndsAs platform named h (CanLaunch h (tried h "clang") ∨ CanLaunch h (tried h "clang++")) := by
  obtain ⟨n, h', hout⟩ := exists_ok_iff.mpr fun fault hraises => hends fault (raises_checkWith_iff.mp hraises)
  have hcheck := outcome_check_of_unnamed hsupported hunnamed h
  obtain ⟨isSane, h₁, hsane, hcode⟩ := outcome_bind_eq_ok_iff.mp (hcheck.symm.trans hout)
  cases hcode
  have hverdict := isUsable_of_checkCompilers hsane
  rw [canLaunch_introduced_iff, canLaunch_introduced_iff, unconfigured_eq] at hverdict
  rw [← hverdict]
  cases isSane with
  | true =>
    refine ⟨iff_of_true ⟨h', hout⟩ rfl, iff_of_false ?_ (· rfl)⟩
    exact fun ⟨_, hok⟩ => nomatch hout.symm.trans hok
  | false =>
    refine ⟨iff_of_false ?_ nofun, iff_of_true ⟨h', hout⟩ nofun⟩
    exact fun ⟨_, hok⟩ => nomatch hout.symm.trans hok

theorem canLaunch_congr {other : String} (hsame : launched? h driver = launched? h other) :
    CanLaunch h driver ↔ CanLaunch h other := by
  rw [canLaunch_iff, canLaunch_iff, hsame]

/-- The check launches the drivers that run unless a driver diverges. If none does, it is passed exactly if one
of the drivers that run can be launched. -/
theorem check_tries_what_runs_unless_diverging (hc : (outcome (locate none "clang") h).1 = .ok c)
    (hcpp : (outcome (locate none "clang++") h).1 = .ok cpp) :
    (TriesWhatRuns h "clang" c ↔ ¬ Diverges h "clang" c) ∧
      (TriesWhatRuns h "clang++" cpp ↔ ¬ Diverges h "clang++" cpp) ∧
      ∀ platform named, isSupported platform = true → named.filter (· != "") = none →
        (∀ fault, ¬ CheckEscapes Config.reader platform named h fault) →
        EndsAs platform named h (CanLaunch h (tried h "clang") ∨ CanLaunch h (tried h "clang++")) ∧
          (¬ Diverges h "clang" c → ¬ Diverges h "clang++" cpp →
            EndsAs platform named h (CanLaunch h c ∨ CanLaunch h cpp)) := by
  have htries : TriesWhatRuns h "clang" c ↔ ¬ Diverges h "clang" c :=
    triesWhatRuns_iff (by decide) (by decide) hc
  have htries' : TriesWhatRuns h "clang++" cpp ↔ ¬ Diverges h "clang++" cpp :=
    triesWhatRuns_iff (by decide) (by decide) hcpp
  refine ⟨htries, htries', fun platform named hsupported hunnamed hends => ?_⟩
  have htried := endsAs_tried hsupported hunnamed hends
  refine ⟨htried, fun hno hno' => ?_⟩
  rwa [canLaunch_congr (htries.mpr hno), canLaunch_congr (htries'.mpr hno')] at htried

/-- A shell starts as the program that it is called for. -/
theorem startsFor_of_shell {loc : Location} {command : List String}
    (hshell : h.files.stat h.here path = .ok (loc, .shell))
    (hfits : ((Files.Load.ofLengths (Host.textLengths command h.environment)).swap [] [path]).isTooGreat = false) :
    h.startsFor command path = true :=
  Files.isOk_iff.mpr ⟨_, Files.execute_eq_ok_iff.mpr (.shell hshell hfits)⟩

/-- A machine with drivers on the search list. Each of them is a shell. -/
def equipped : Host :=
  .fresh ⟨[(["d"], .directory), (["d", "clang"], .shell), (["d", "clang++"], .shell)]⟩ [("PATH", "/d")]

theorem find_equipped (hname : name = "clang" ∨ name = "clang++") (here : Location) :
    equipped.files.find here true ("/d/" ++ name) = .ok ⟨["d", name], some .shell⟩ := by
  obtain rfl | rfl := hname <;>
    exact Files.find_of_directories (by decide) (by decide) (by decide) (by decide)
      (by decide) rfl nofun

theorem programPaths_equipped (hname : name = "clang" ∨ name = "clang++") :
    Host.programPaths equipped.environment name = ["/d/" ++ name] := by
  obtain rfl | rfl := hname <;> decide

theorem locate_equipped (hname : name = "clang" ∨ name = "clang++") :
    (outcome (locate none name) equipped).1 = .ok ("/d/" ++ name) := by
  have hslash : Path.slash ∉ name.toList := by obtain rfl | rfl := hname <;> decide
  have hprogram : equipped.files.isProgram equipped.here ("/d/" ++ name) = true :=
    Files.isProgram_of_find (by obtain rfl | rfl := hname <;> decide) (find_equipped hname _)
  have hfound : equipped.findProgram? name = some ("/d/" ++ name) := by
    rw [Host.findProgram?_of_notMem hslash, if_neg (by decide), programPaths_equipped hname]
    exact List.find?_cons_of_pos hprogram
  have hlocated : Located equipped none name .search ("/d/" ++ name) := .search rfl (by decide) hfound
  obtain ⟨h', -, hout⟩ := outcome_locate_of_located hlocated
  rw [hout]
  rfl

theorem startsFor_equipped (hname : name = "clang" ∨ name = "clang++") :
    equipped.startsFor (query name) ("/d/" ++ name) = true ∧
      equipped.startsFor (query ("/d/" ++ name)) ("/d/" ++ name) = true := by
  have hshell := Files.stat_of_find (find_equipped hname equipped.here)
  constructor
  · exact startsFor_of_shell hshell (by obtain rfl | rfl := hname <;> decide)
  · exact startsFor_of_shell hshell (by obtain rfl | rfl := hname <;> decide)

theorem launched?_equipped (hname : name = "clang" ∨ name = "clang++") :
    launched? equipped name = some ("/d/" ++ name) ∧
      launched? equipped ("/d/" ++ name) = some ("/d/" ++ name) := by
  obtain ⟨hstarts, hstarts'⟩ := startsFor_equipped hname
  have hpass : Host.isPassable (query name) equipped.environment = true := by
    obtain rfl | rfl := hname <;> decide
  have hpass' : Host.isPassable (query ("/d/" ++ name)) equipped.environment = true := by
    obtain rfl | rfl := hname <;> decide
  constructor
  · rw [launched?, if_pos hpass, Host.program?, query, List.headD_cons, programPaths_equipped hname]
    exact List.find?_cons_of_pos hstarts
  · have hslash : Path.slash ∈ ("/d/" ++ name).toList := by obtain rfl | rfl := hname <;> decide
    rw [launched?, if_pos hpass', query, Host.program?_of_slash hslash]
    exact if_pos hstarts'

/-- What the shell makes of the switch. -/
theorem finished_equipped (hname : name = "clang" ∨ name = "clang++") :
    let finished := Shell.start Shell.stepLimit equipped.files equipped.here equipped.accounts
      equipped.environment (query name)
    finished.printed = [(.diagnostics, Text.Utf8.encode (name ++ ": 0: Illegal option --\n"))] ∧
      finished.files = equipped.files := by
  obtain rfl | rfl := hname <;> decide

theorem outcome_spawn_equipped (hname : name = "clang" ∨ name = "clang++") (output : Bytes) :
    ∃ finished, PrintsText finished ∧ outcome (spawn (query name) none) { equipped with output := output } =
      (.ok finished, { equipped with output := output }) := by
  have hpass : Host.isPassable (query name) equipped.environment = true := by
    obtain rfl | rfl := hname <;> decide
  have hstart : equipped.files.startFirst [] (Host.textLengths (query name) equipped.environment) (query name) none
      .noSuchFile (Host.programPaths equipped.environment name) = .ok (query name) := by
    have hshell : equipped.files.start [] (Host.textLengths (query name) equipped.environment) ("/d/" ++ name)
        (query name) = .ok (query name) := by
      refine Files.execute_eq_ok_iff.mpr (.shell (Files.stat_of_find (find_equipped hname [])) ?_)
      obtain rfl | rfl := hname <;> decide
    rw [programPaths_equipped hname, Files.startFirst, hshell]
  have hspawn : outcome (spawn (query name) none) { equipped with output := output } = _ :=
    outcome_spawn_of_start hpass hstart
  obtain ⟨hprinted, hfiles⟩ := finished_equipped hname
  generalize hfinished : Shell.start Shell.stepLimit equipped.files equipped.here equipped.accounts
    equipped.environment (query name) = finished at hprinted hfiles
  refine ⟨finished, printsText_iff.mpr ⟨"", name ++ ": 0: Illegal option --\n", ?_, ?_⟩, ?_⟩
  · rw [Shell.Finished.on, Shell.bytesOn, hprinted]
    rfl
  · rw [Shell.Finished.on, Shell.bytesOn, hprinted]
    simp
  · rw [hspawn]
    simp only [hfinished, hfiles]

theorem not_driversEscape_equipped (output : Bytes) (fault : Fault) :
    ¬ DriversEscape "clang" "clang++" { equipped with output := output } fault := by
  have htrial : ∀ name, name = "clang" ∨ name = "clang++" →
      ¬ TrialEscapes name Probe.versionSwitch { equipped with output := output } fault := by
    intro name hname hescapes
    obtain ⟨finished, htext, hspawn⟩ := outcome_spawn_equipped hname output
    cases hescapes with
    | unpassable holdsNul =>
      exact nomatch (outcome_spawn_of_not_isPassable holdsNul).symm.trans hspawn
    | notText started unreadable =>
      cases hspawn.symm.trans started
      exact unreadable htext
  intro hescapes
  cases hescapes with
  | c escapes =>
    rw [LooseText.handed_ofString] at escapes
    exact htrial _ (.inl rfl) escapes
  | cpp finds escapes =>
    rw [LooseText.handed_ofString] at finds escapes
    obtain ⟨finished, -, hspawn⟩ := outcome_spawn_equipped (.inl rfl) output
    cases finds with
    | runs started =>
      cases hspawn.symm.trans started
      exact htrial _ (.inr rfl) escapes
    | notStarted refused => exact nomatch hspawn.symm.trans refused
  | unprintable _ _ notPlain => simp at notPlain

theorem not_diverges_equipped (hname : name = "clang" ∨ name = "clang++") :
    ¬ Diverges equipped name ("/d/" ++ name) := by
  have hunset : defaultDirectory? equipped = none := by decide +kernel
  rw [diverges_iff_of_unset hunset]
  rintro (⟨-, refused, -⟩ | ⟨-, refused⟩)
  · exact absurd ((startsFor_equipped hname).1.symm.trans refused) (by decide)
  · exact nomatch (launched?_equipped hname).2.symm.trans refused

/-- On that machine the check is passed, because the drivers that run can be launched. -/
theorem check_tries_what_runs_equipped :
    TriesWhatRuns equipped "clang" "/d/clang" ∧ TriesWhatRuns equipped "clang++" "/d/clang++" ∧
      EndsAs "linux" none equipped (CanLaunch equipped "/d/clang" ∨ CanLaunch equipped "/d/clang++") ∧
      ∃ h', outcome (check "linux" none) equipped = (.ok 0, h') := by
  have hc : (outcome (locate none "clang") equipped).1 = .ok "/d/clang" := locate_equipped (.inl rfl)
  have hcpp : (outcome (locate none "clang++") equipped).1 = .ok "/d/clang++" := locate_equipped (.inr rfl)
  have hno : ¬ Diverges equipped "clang" "/d/clang" := not_diverges_equipped (.inl rfl)
  have hno' : ¬ Diverges equipped "clang++" "/d/clang++" := not_diverges_equipped (.inr rfl)
  have hends : ∀ fault, ¬ CheckEscapes Config.reader "linux" none equipped fault := by
    intro fault
    obtain ⟨output, hintroduced⟩ := exists_introduced_eq equipped
    have hdrivers : unconfigured equipped = ("clang", "clang++") := by decide
    rw [checkEscapes_iff_of_unnamed (by decide +kernel) rfl, hdrivers, hintroduced]
    exact not_driversEscape_equipped output fault
  obtain ⟨htries, htries', hcheck⟩ := check_tries_what_runs_unless_diverging hc hcpp
  obtain ⟨-, hverdict⟩ := hcheck "linux" none (by decide +kernel) rfl hends
  have hlaunch : CanLaunch equipped "/d/clang" :=
    canLaunch_iff.mpr (Option.isSome_iff_exists.mpr ⟨_, (launched?_equipped (.inl rfl)).2⟩)
  exact ⟨htries.mpr hno, htries'.mpr hno', hverdict hno hno', (hverdict hno hno').sane.mpr (.inl hlaunch)⟩

/-- A machine with drivers in the default directory that were moved aside. Nothing stands in their place. -/
def laidAside : Host :=
  .fresh ⟨[(["d"], .directory), (["d", "clang.original"], .shell), (["d", "clang++.original"], .shell)]⟩
    [(defaultDirectoryVariable, "/d")]

theorem find_laidAside (hname : name = "clang" ∨ name = "clang++") (here : Location) :
    laidAside.files.find here true ("/d/" ++ name) = .ok ⟨["d", name], none⟩ ∧
      laidAside.files.find here true ("/d/" ++ name ++ asideSuffix) =
        .ok ⟨["d", name ++ asideSuffix], some .shell⟩ := by
  obtain rfl | rfl := hname <;> constructor <;>
    exact Files.find_of_directories (by decide) (by decide) (by decide)
      (by decide) (by decide) rfl nofun

theorem locate_laidAside (hname : name = "clang" ∨ name = "clang++") :
    (outcome (locate none name) laidAside).1 = .ok ("/d/" ++ name ++ asideSuffix) := by
  have hjoin : Path.join "/d" name = "/d/" ++ name := by obtain rfl | rfl := hname <;> decide
  have hlocated : Located laidAside none name .defaultDirectory ("/d/" ++ name) :=
    hjoin ▸ .defaultDirectory rfl (by decide)
  have hexists : laidAside.pathExists ("/d/" ++ name ++ asideSuffix) = true :=
    Files.pathExists_of_find (by obtain rfl | rfl := hname <;> decide) (find_laidAside hname _).2
  exact (locate_prefers_aside_iff hlocated hexists).1.mpr (by decide)

/-- The drivers that were moved aside run. -/
theorem canLaunch_laidAside (hname : name = "clang" ∨ name = "clang++") :
    CanLaunch laidAside ("/d/" ++ name ++ asideSuffix) := by
  have hslash : Path.slash ∈ ("/d/" ++ name ++ asideSuffix).toList := by
    obtain rfl | rfl := hname <;> decide
  have hpass : Host.isPassable (query ("/d/" ++ name ++ asideSuffix)) laidAside.environment = true := by
    obtain rfl | rfl := hname <;> decide
  have hstarts : laidAside.startsFor (query ("/d/" ++ name ++ asideSuffix)) ("/d/" ++ name ++ asideSuffix) = true :=
    startsFor_of_shell (Files.stat_of_find (find_laidAside hname laidAside.here).2)
      (by obtain rfl | rfl := hname <;> decide)
  rw [canLaunch_iff, launched?, if_pos hpass, query, Host.program?_of_slash hslash]
  exact congrArg Option.isSome (if_pos hstarts)

theorem program?_laidAside (hname : name = "clang" ∨ name = "clang++") :
    laidAside.program? (query ("/d/" ++ name)) = none := by
  have hpaths : Host.programPaths laidAside.environment ("/d/" ++ name) = ["/d/" ++ name] := by
    obtain rfl | rfl := hname <;> decide
  have hnul : Files.hasNul ("/d/" ++ name) = false := by obtain rfl | rfl := hname <;> decide
  refine Host.program?_eq_none fun other hmem => ?_
  obtain rfl := List.mem_singleton.mp (hpaths ▸ hmem)
  exact ⟨hnul, Files.isProgram_of_find hnul (find_laidAside hname _).1⟩

/-- On that machine both drivers that run can be launched, and the check fails. -/
theorem check_fails_laidAside :
    (outcome (locate none "clang") laidAside).1 = .ok "/d/clang.original" ∧
      (outcome (locate none "clang++") laidAside).1 = .ok "/d/clang++.original" ∧
      CanLaunch laidAside "/d/clang.original" ∧ CanLaunch laidAside "/d/clang++.original" ∧
      ∃ h', outcome (check "linux" none) laidAside = (.ok 1, h') := by
  have hnone : laidAside.program? (query "/d/clang") = none := @program?_laidAside "clang" (.inl rfl)
  have hnone' : laidAside.program? (query "/d/clang++") = none := @program?_laidAside "clang++" (.inr rfl)
  have hpass : Host.isPassable (query "/d/clang") laidAside.environment = true := by decide
  have hpass' : Host.isPassable (query "/d/clang++") laidAside.environment = true := by decide
  have hends : ∀ fault, ¬ CheckEscapes Config.reader "linux" none laidAside fault := by
    intro fault
    obtain ⟨output, hintroduced⟩ := exists_introduced_eq laidAside
    have hdrivers : unconfigured laidAside = ("/d/clang", "/d/clang++") := by decide
    rw [checkEscapes_iff_of_unnamed (by decide +kernel) rfl, hdrivers, hintroduced]
    exact not_driversEscape hpass hpass' hnone hnone'
  have hverdict : EndsAs "linux" none laidAside (CanLaunch laidAside "/d/clang" ∨ CanLaunch laidAside "/d/clang++") :=
    endsAs_tried (by decide +kernel) rfl hends
  refine ⟨locate_laidAside (.inl rfl), locate_laidAside (.inr rfl), @canLaunch_laidAside "clang" (.inl rfl),
    @canLaunch_laidAside "clang++" (.inr rfl), hverdict.insane.mpr ?_⟩
  rw [canLaunch_iff, canLaunch_iff, launched?, launched?, if_pos hpass, if_pos hpass', hnone, hnone']
  exact (·.elim nofun nofun)

end BitcodeWrapper.Sanity
