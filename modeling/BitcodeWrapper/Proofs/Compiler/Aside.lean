import BitcodeWrapper.Compiler
import BitcodeWrapper.Proofs.Host.Walk
import BitcodeWrapper.Proofs.Outcome

/-! The four routes to a driver, and on which of them a driver that was moved aside is preferred. -/
namespace BitcodeWrapper.Compiler
open BitcodeWrapper.Action

inductive Route where
  | file
  | directory
  | defaultDirectory
  | search
  deriving Repr, DecidableEq

/-- The driver that stands at the end of a route, before one that was moved aside is looked for. -/
inductive Located (h : Host) (configured : Option String) (name : String) : Route → String → Prop
  | file {path : String} (given : configured.filter (· != "") = some path)
      (isFile : h.isDirectory path = false) : Located h configured name .file path
  | directory {path : String} (given : configured.filter (· != "") = some path)
      (isDirectory : h.isDirectory path = true) :
      Located h configured name .directory (Path.join path name)
  | defaultDirectory {path : String} (notGiven : configured.filter (· != "") = none)
      (set : (h.environment.get? defaultDirectoryVariable).filter (· != "") = some path) :
      Located h configured name .defaultDirectory (Path.join path name)
  | search {path : String} (notGiven : configured.filter (· != "") = none)
      (notSet : (h.environment.get? defaultDirectoryVariable).filter (· != "") = none)
      (found : h.findProgram? name = some path) : Located h configured name .search path

/-- The driver that runs: the search list is the one route on which no other is looked for. -/
def preferred (h : Host) (route : Route) (driver : String) : String :=
  if route ≠ .search ∧ h.pathExists (driver ++ asideSuffix) = true then driver ++ asideSuffix
  else driver

theorem outcome_preferAside (h : Host) (driver : String) :
    ∃ h', Host.RecordsTo h h' ∧ outcome (preferAside driver) h =
      (.ok (if h.pathExists (driver ++ asideSuffix) then driver ++ asideSuffix else driver), h') := by
  simp only [preferAside, Action.pathExists, outcome_bind, outcome_get, outcome_pure]
  by_cases ha : h.pathExists (driver ++ asideSuffix) = true
  · refine ⟨_, .single h (h.ownRecord .debug
      ("Using " ++ (driver ++ asideSuffix) ++ " instead of " ++ driver)), ?_⟩
    simp only [ha, ↓reduceIte, outcome_bind, outcome_debug, outcome_pure]
  · refine ⟨h, .refl, ?_⟩
    simp only [ha, Bool.false_eq_true, ↓reduceIte, outcome_pure]

/-- Each route leads to its driver, with nothing but records written on the way. -/
theorem outcome_locate_of_located {h : Host} {configured : Option String} {name driver : String}
    {route : Route} (hl : Located h configured name route driver) :
    ∃ h', Host.RecordsTo h h' ∧
      outcome (locate configured name) h = (.ok (preferred h route driver), h') := by
  cases hl with
  | file given isFile =>
    obtain ⟨h', hr, ho⟩ := outcome_preferAside h driver
    refine ⟨h', hr, ?_⟩
    simp only [locate, given, Action.isDirectory, outcome_bind, outcome_get, outcome_pure, isFile,
      Bool.false_eq_true, ↓reduceIte, ho, preferred, ne_eq, reduceCtorEq, not_false_eq_true, true_and]
  | directory given isDirectory =>
    rename_i path
    obtain ⟨h', hr, ho⟩ := outcome_preferAside h (Path.join path name)
    refine ⟨h', hr, ?_⟩
    simp only [locate, given, Action.isDirectory, outcome_bind, outcome_get, outcome_pure,
      isDirectory, ↓reduceIte, ho, preferred, ne_eq, reduceCtorEq, not_false_eq_true, true_and]
  | defaultDirectory notGiven set =>
    rename_i path
    obtain ⟨h', hr, ho⟩ := outcome_preferAside h (Path.join path name)
    refine ⟨h', hr, ?_⟩
    simp only [locate, notGiven, outcome_bind, outcome_get, set, ho, preferred, ne_eq, reduceCtorEq,
      not_false_eq_true, true_and]
  | search notGiven notSet found =>
    refine ⟨h, .refl, ?_⟩
    simp only [locate, notGiven, outcome_bind, outcome_get, notSet, found, outcome_pure, preferred,
      ne_eq, not_true_eq_false, false_and, ↓reduceIte]

/-- There is no fifth route: without a driver on one of the four, the search is given up. -/
theorem located_or_refused (h : Host) (configured : Option String) (name : String) :
    (∃ route driver, Located h configured name route driver) ∨
      ∃ h', Host.RecordsTo h h' ∧ outcome (locate configured name) h =
        (.error (.failure (.configuration (.driverNotFound name defaultDirectoryVariable))), h') := by
  rcases given : configured.filter (· != "") with _ | path
  · rcases set : (h.environment.get? defaultDirectoryVariable).filter (· != "") with _ | directory
    · rcases found : h.findProgram? name with _ | driver
      · refine .inr ⟨_, .single h (h.ownRecord .error
          (ConfigurationError.driverNotFound name defaultDirectoryVariable).message), ?_⟩
        simp only [locate, given, outcome_bind, outcome_get, set, found, outcome_log]
        rfl
      · exact .inl ⟨.search, driver, .search given set found⟩
    · exact .inl ⟨.defaultDirectory, _, .defaultDirectory given set⟩
  · cases isDirectory : h.isDirectory path with
    | true => exact .inl ⟨.directory, _, .directory given isDirectory⟩
    | false => exact .inl ⟨.file, path, .file given isDirectory⟩

theorem recordsTo_of_locate (h : Host) (configured : Option String) (name : String) :
    Host.RecordsTo h (outcome (locate configured name) h).2 := by
  obtain ⟨route, driver, hl⟩ | ⟨h', hr, ho⟩ := located_or_refused h configured name
  · obtain ⟨h', hr, ho⟩ := outcome_locate_of_located hl
    rwa [ho]
  · rwa [ho]

theorem append_asideSuffix_ne (driver : String) : driver ++ asideSuffix ≠ driver := by
  intro h
  have hlength := congrArg String.length h
  simp [asideSuffix] at hlength

/-- A driver that was moved aside is run, and never what stands in its place, on every route but the
search list; there what stands in its place is run. -/
theorem locate_prefers_aside_iff {h : Host} {configured : Option String} {name driver : String}
    {route : Route} (hl : Located h configured name route driver)
    (haside : h.pathExists (driver ++ asideSuffix) = true) :
    ((outcome (locate configured name) h).1 = .ok (driver ++ asideSuffix) ↔ route ≠ .search) ∧
      ((outcome (locate configured name) h).1 = .ok driver ↔ route = .search) := by
  obtain ⟨h', -, ho⟩ := outcome_locate_of_located hl
  rw [ho]
  by_cases hroute : route = .search
  · simp [preferred, hroute, (append_asideSuffix_ne driver).symm]
  · simp [preferred, hroute, haside, append_asideSuffix_ne driver]

/-- A machine on which the driver was moved aside and something else put in its place. -/
def installedInPlace : Host :=
  .fresh ⟨[(["bin"], .directory), (["bin", "clang"], .file [] true),
    (["bin", "clang.original"], .file [] true)]⟩ [("PATH", "/bin")]

theorem aside_exists_installedInPlace :
    installedInPlace.pathExists ("/bin/clang" ++ asideSuffix) = true := by
  have hpath : "/bin/clang" ++ asideSuffix = "/bin/clang.original" := by decide +kernel
  have hfind : installedInPlace.files.find [] true "/bin/clang.original" =
      .ok ⟨["bin", "clang.original"], some (.file [] true)⟩ :=
    Files.find_of_directories (by decide +kernel) (by decide) (by decide) (by decide) (by decide)
      rfl nofun
  rw [hpath]
  exact Files.pathExists_of_find (by decide +kernel) hfind

theorem locate_prefers_aside_in_directory :
    Located installedInPlace (some "/bin") "clang" .directory "/bin/clang" ∧
      installedInPlace.pathExists ("/bin/clang" ++ asideSuffix) = true ∧
      (outcome (locate (some "/bin") "clang") installedInPlace).1 =
        .ok ("/bin/clang" ++ asideSuffix) := by
  have hdriver : Path.join "/bin" "clang" = "/bin/clang" := by decide +kernel
  have hfind : installedInPlace.files.find [] true "/bin" = .ok ⟨["bin"], some .directory⟩ :=
    Files.find_of_directories (by decide +kernel) (by decide) (by decide) (by decide) (by decide)
      rfl nofun
  have hdirectory : installedInPlace.isDirectory "/bin" = true :=
    Files.isDirectory_of_find (by decide +kernel) hfind
  have hl : Located installedInPlace (some "/bin") "clang" .directory "/bin/clang" :=
    hdriver ▸ .directory rfl hdirectory
  exact ⟨hl, aside_exists_installedInPlace,
    (locate_prefers_aside_iff hl aside_exists_installedInPlace).1.mpr (by decide)⟩

theorem findProgram?_installedInPlace :
    installedInPlace.findProgram? "clang" = some "/bin/clang" := by
  have hplain : Path.directory "clang" = "" := by decide +kernel
  have hlist : (installedInPlace.environment.get? Host.searchVariable).getD Host.standardSearch =
      "/bin" := by decide +kernel
  have hpaths : (Host.searchDirectories "/bin").map (fun d => Path.join d "clang") =
      ["/bin/clang"] := by decide +kernel
  have hfind : installedInPlace.files.find [] true "/bin/clang" =
      .ok ⟨["bin", "clang"], some (.file [] true)⟩ :=
    Files.find_of_directories (by decide +kernel) (by decide) (by decide) (by decide) (by decide)
      rfl nofun
  have hprogram : installedInPlace.files.isProgram installedInPlace.here "/bin/clang" = true :=
    Files.isProgram_of_find (by decide +kernel) hfind
  rw [Host.findProgram?, if_neg (by rw [hplain]; decide), hlist]
  simp only [String.reduceEq, ↓reduceIte, hpaths]
  exact List.find?_cons_of_pos hprogram

/-- By the search list, what stands in place of the driver is run although the driver is there. -/
theorem locate_by_search_runs_replacement :
    Located installedInPlace none "clang" .search "/bin/clang" ∧
      installedInPlace.pathExists ("/bin/clang" ++ asideSuffix) = true ∧
      (outcome (locate none "clang") installedInPlace).1 = .ok "/bin/clang" := by
  have hl : Located installedInPlace none "clang" .search "/bin/clang" :=
    .search rfl (by decide +kernel) findProgram?_installedInPlace
  obtain ⟨h', -, ho⟩ := outcome_locate_of_located hl
  exact ⟨hl, aside_exists_installedInPlace, by rw [ho]; rfl⟩

end BitcodeWrapper.Compiler
