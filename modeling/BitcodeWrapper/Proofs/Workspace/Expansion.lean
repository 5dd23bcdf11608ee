import BitcodeWrapper.Proofs.Workspace.Ready

/-! The path of a new file. The file is made under its name as that is written; in the path that is
returned the variables in the name are replaced. -/
namespace BitcodeWrapper

namespace Path
variable {env : Bindings} {front name : String}

theorem expandVariablesIn_append (env : Bindings) {cs : List Char} (h : '$' ∉ cs) (ds : List Char) :
    expandVariablesIn env (cs ++ ds) = cs ++ expandVariablesIn env ds := by
  induction cs with
  | nil => rfl
  | cons c cs ih =>
    obtain ⟨hc, hcs⟩ := not_or.mp (mt List.mem_cons.mpr h)
    rw [List.cons_append, expandVariablesIn]
    · rw [ih hcs, List.cons_append]
    · rintro _ rfl
      exact (hc rfl).elim
    · rintro rfl
      exact (hc rfl).elim

/-- What stands in front of the first variable stays. -/
theorem expandVariables_append (h : '$' ∉ front.toList) :
    expandVariables env (front ++ name) = front ++ expandVariables env name := by
  apply String.toList_injective
  rw [expandVariables, expandVariables, String.toList_append, expandVariablesIn_append env h,
    String.toList_append, String.toList_ofList, String.toList_ofList]

/-- A path ends like the name that was joined to it. -/
theorem getLast?_join (front : String) (hname : name ≠ "") :
    (join front name).toList.getLast? = name.toList.getLast? := by
  obtain ⟨c, hc⟩ := Option.ne_none_iff_exists'.mp
    (mt List.getLast?_eq_none_iff.mp (toList_ne_nil hname))
  rw [join, String.toList_ofList, joinChars]
  split
  · rfl
  · split
    · rw [List.getLast?_append, hc]
      rfl
    · rw [List.getLast?_append, List.getLast?_cons, hc]
      rfl

end Path

namespace Files
variable {fs : Files} {follow : Bool} {budget : Nat} {names rest : List String} {loc : Location}
  {found : Found}

/-- A walk over directories goes on from the last of them. -/
theorem Walks.past_directories (h : fs.Walks follow budget (names ++ rest) loc found)
    (hplain : ∀ name ∈ names, IsPlain name)
    (hdirectories : ∀ x, x <+: names → fs.get? (loc ++ x) = some .directory) :
    fs.Walks follow budget rest (loc ++ names) found := by
  induction names generalizing loc with
  | nil => rwa [List.append_nil]
  | cons name names ih =>
    obtain ⟨hname, hplain⟩ := List.forall_mem_cons.mp hplain
    have hentry : fs.get? (loc ++ [name]) = some .directory :=
      hdirectories [name] (List.cons_prefix_cons.mpr ⟨rfl, List.nil_prefix⟩)
    have honward : fs.Walks follow budget (names ++ rest) (loc ++ [name]) found := by
      rw [List.cons_append] at h
      generalize names ++ rest = onward at h ⊢
      cases h with
      | blank hblank => exact (hname.notBlank hblank).elim
      | up => exact (hname.ne_dots rfl).elim
      | stop hstep hentry' hstop => exact (hstop (hentry'.symm.trans hentry)).elim
      | down hstep hentry' onward => exact onward
      | jump hstep hentry' => exact nomatch hentry.symm.trans hentry'
    rw [List.append_cons]
    refine ih honward hplain fun x hx => ?_
    rw [← List.append_cons]
    exact hdirectories (name :: x) (List.cons_prefix_cons.mpr ⟨rfl, hx⟩)

end Files

namespace Host
variable {h : Host} {front name : String}

theorem expandText_append (habsolute : Path.isAbsolute front = true) (hdollar : '$' ∉ front.toList) :
    h.expandText (front ++ name) = front ++ Path.expandVariables h.environment name := by
  have hwhole : Path.isAbsolute (front ++ name) = true := by
    obtain ⟨cs, hcs⟩ := Path.toList_of_isAbsolute habsolute
    rw [Path.isAbsolute_iff, String.toList_append, hcs]
    rfl
  rw [expandText, expandHome_of_isAbsolute hwhole, Path.expandVariables_append hdollar]

end Host

namespace Workspace
open BitcodeWrapper.Action Files
variable {h h₀ : Host} {path name e : String} {W : Location}

/-- The path of a workspace that was made ends in the name of the workspace. -/
theorem ne_root_of_make (hentered : (outcome make h₀).1 = .ok path) (htext : path = Location.text W) :
    W ≠ [] := by
  rintro rfl
  obtain ⟨cause, ho⟩ | ⟨loc, -, ho⟩ := outcome_make h₀
  · rw [ho] at hentered
    exact nomatch hentered
  · rw [ho] at hentered
    have hname := isPlain_nameOf (nextNumber h₀)
    have hlast := Path.getLast?_join h₀.temporary hname.ne_empty
    have hslash : path.toList.getLast? = some Path.slash := by
      rw [htext]
      decide
    rw [← pathOf, Except.ok.inj hentered, hslash] at hlast
    exact hname.noSlash (List.mem_of_getLast? hlast.symm)

/-- A name under which a file can be opened is the name of something. -/
theorem CanOpen.isPlain (hopen : CanOpen h path name) (hd : h.files.IsDirect path W) (hroot : W ≠ [])
    (hslash : Path.slash ∉ name.toList) : IsPlain name := by
  obtain ⟨hlast, found, hfind, hentry⟩ := exists_openForWriting_iff.mp hopen.2
  obtain ⟨-, -, hwalks⟩ := find_eq_ok_iff.mp hfind
  rw [Path.names_join_of_ne_slash hd.ne_empty hslash (hd.getLast?_ne hroot), hd.names_eq hroot,
    Path.isAbsolute_join hd.ne_empty hslash, if_pos hd.isAbsolute] at hwalks
  have hnamed : h.files.Walks true linkLimit (W ++ [name]) [] found :=
    walks_of_walk ((walk_blank (.inl rfl)).symm.trans (walk_of_walks hwalks))
  have hwalk := walk_of_walks (hnamed.past_directories hd.plain hd.directories)
  refine ⟨?_, ?_, ?_, hslash⟩
  · rintro rfl
    refine hlast ?_
    rw [Path.toList_join_of_ne_slash hd.ne_empty hslash (hd.getLast?_ne hroot)]
    simp
  -- the dots lead to directories, which are not opened
  · rintro rfl
    rw [walk_blank (.inr rfl), walk_nil] at hwalk
    rw [← Except.ok.inj hwalk] at hentry
    exact hentry (hd.directories W List.prefix_rfl)
  · rintro rfl
    rw [walk_up, walk_nil] at hwalk
    rw [← Except.ok.inj hwalk] at hentry
    exact hentry (hd.directories W.dropLast (List.dropLast_prefix W))

/-- The file is made where its name says, and the answer is the absolute path of that. -/
theorem outcome_createFile_of_free (hopen : CanOpen h path name) (hd : h.files.IsDirect path W)
    (hname : IsPlain name) (hfree : h.files.get? (W ++ [name]) = none) :
    outcome (createFile path name) h =
      (fileAnswer (Path.join path name) (h.expandPath (Path.join path name) true),
        { h with files := h.files.put (W ++ [name]) (.file [] false) }) := by
  have hlink : ∀ target, h.files.get? (W ++ [name]) ≠ some (.link target) := by
    rw [hfree]
    exact nofun
  obtain ⟨hnul, opened, hopened⟩ := hopen
  obtain ⟨hlast, found, hfind, -⟩ := exists_openForWriting_iff.mp ⟨opened, hopened⟩
  obtain ⟨hlocation, hfits⟩ := hd.of_find_join hname hlink hfind
  have hput : h.files.openForWriting h.here false (Path.join path name) =
      .ok (h.files.put (W ++ [name]) (.file [] false), W ++ [name]) := by
    rw [openForWriting, if_neg hlast, hd.find_join hname hfits hlink, hfree]
  exact outcome_createFile_of_openForWriting hnul hput

/-- The answer is found from the text with the variables replaced. -/
theorem expandPath_join_eq (hd : h.files.IsDirect path W) (hroot : W ≠ []) (hname : IsPlain name)
    (hdollar : '$' ∉ path.toList) (hnul : hasNul path = false)
    (he : Path.expandVariables h.environment name = e) :
    h.expandPath (Path.join path name) true =
      if hasNul e = true then .error .invalidValue
      else
        let whole := h.files.realPath h.here (path ++ "/" ++ e)
        if h.isDirectory (Path.directory whole) then .ok whole
        else .error (.os ⟨.noSuchFile, "failed to expand path " ++ Path.join path name,
          some (Path.directory whole)⟩) := by
  have htext : h.expandText (Path.join path name) = path ++ "/" ++ e := by
    have hfront : Path.isAbsolute (path ++ "/") = true := by
      obtain ⟨cs, hcs⟩ := Path.toList_of_isAbsolute hd.isAbsolute
      rw [Path.isAbsolute_iff, String.toList_append, hcs]
      rfl
    have hvariable : '$' ∉ (path ++ "/").toList := by
      rw [String.toList_append]
      exact List.not_mem_append hdollar (by decide)
    rw [hd.join_eq_append hroot hname, Host.expandText_append hfront hvariable, he]
  have hnuls : hasNul (path ++ "/" ++ e) = hasNul e := by
    rw [hasNul_append, hasNul_append, hnul, show hasNul "/" = false by decide]
    rfl
  simp only [Host.expandPath, htext, hnuls, ↓reduceIte, Bool.true_and, Bool.or_false,
    Host.namesAccountWithNul_of_isAbsolute (hd.isAbsolute_join hname)]

/-- The name with its variables replaced leads, through links perhaps, to what the name as written
stands for. -/
def LeadsBack (h : Host) (path name : String) : Prop :=
  hasNul (Path.expandVariables h.environment name) = false ∧
    h.files.realPath h.here (path ++ "/" ++ Path.expandVariables h.environment name) =
      path ++ "/" ++ name

/-- What a file that can be opened tells of the directory it is in. -/
theorem CanOpen.isDirectory (hopen : CanOpen h path name) (hd : h.files.IsDirect path W)
    (hroot : W ≠ []) (hname : IsPlain name) (hfree : h.files.get? (W ++ [name]) = none) :
    hasNul path = false ∧ h.isDirectory path = true := by
  have hlink : ∀ target, h.files.get? (W ++ [name]) ≠ some (.link target) := by
    rw [hfree]
    exact nofun
  obtain ⟨hnul, hopened⟩ := hopen
  obtain ⟨-, found, hfind, -⟩ := exists_openForWriting_iff.mp hopened
  rw [hd.hasNul_join hroot hname, Bool.or_eq_false_iff] at hnul
  have hfits := (hd.of_find_join hname hlink hfind).2.of_join hname
  exact ⟨hnul.1, isDirectory_of_find hnul.1 (hd.find hroot hfits)⟩

theorem expandPath_eq_ok_iff_leadsBack (hd : h.files.IsDirect path W) (hroot : W ≠ [])
    (hname : IsPlain name) (hdollar : '$' ∉ path.toList) (hnul : hasNul path = false)
    (hdirectory : h.isDirectory path = true) :
    h.expandPath (Path.join path name) true = .ok (path ++ "/" ++ name) ↔ LeadsBack h path name := by
  rw [expandPath_join_eq hd hroot hname hdollar hnul rfl, LeadsBack]
  constructor
  · intro hok
    split at hok
    · exact nomatch hok
    · rename_i hnone
      dsimp only at hok
      split at hok
      · exact ⟨Bool.eq_false_iff.mpr hnone, Except.ok.inj hok⟩
      · exact nomatch hok
  · rintro ⟨hnone, hback⟩
    have hparent : Path.directory (path ++ "/" ++ name) = path := by
      rw [← hd.join_eq_append hroot hname, hd.directory_join hroot hname]
    simp only [hnone, Bool.false_eq_true, ↓reduceIte, hback, hparent, hdirectory]

/-- A plain name that the expansion leads to is taken for the name of the file. -/
theorem expandPath_of_plain (hd : h.files.IsDirect path W) (hroot : W ≠ []) (hname : IsPlain name)
    (hdollar : '$' ∉ path.toList) (hnul : hasNul path = false)
    (hdirectory : h.isDirectory path = true) (he : Path.expandVariables h.environment name = e)
    (hplain : IsPlain e) (hnone : hasNul e = false)
    (hlink : ∀ target, h.files.get? (W ++ [e]) ≠ some (.link target)) :
    h.expandPath (Path.join path name) true = .ok (path ++ "/" ++ e) := by
  have hreal : h.files.realPath h.here (path ++ "/" ++ e) = path ++ "/" ++ e := by
    rw [← hd.join_eq_append hroot hplain, hd.realPath_join hplain hlink]
  have hparent : Path.directory (path ++ "/" ++ e) = path := by
    rw [← hd.join_eq_append hroot hplain, hd.directory_join hroot hplain]
  rw [expandPath_join_eq hd hroot hname hdollar hnul he]
  simp only [hnone, Bool.false_eq_true, ↓reduceIte, hreal, hparent, hdirectory]

theorem fileAnswer_eq_ok_iff {whole : String} {r : Except Fault String} :
    fileAnswer path r = .ok whole ↔ r = .ok whole := by
  rcases r with (_ | _ | _ | _ | _) | whole' <;> simp [fileAnswer]

/-- A file is made under its name in the workspace. The path that is returned is the path of that file
exactly if the expansion of its name leads back to it; this it does if the name expands to itself, and
another plain name is returned as it is. -/
theorem createFile_returns_made_file_iff (hentered : (outcome make h₀).1 = .ok path)
    (hd : h.files.IsDirect path W) (hdollar : '$' ∉ path.toList) (hslash : Path.slash ∉ name.toList)
    (hfree : h.files.get? (W ++ [name]) = none) (hopen : CanOpen h path name) :
    (outcome (createFile path name) h).2 =
        { h with files := h.files.put (W ++ [name]) (.file [] false) } ∧
      ((outcome (createFile path name) h).1 = .ok (path ++ "/" ++ name) ↔ LeadsBack h path name) ∧
      (Path.expandVariables h.environment name = name → LeadsBack h path name) ∧
      ∀ e, Path.expandVariables h.environment name = e → IsPlain e → hasNul e = false →
        (∀ target, h.files.get? (W ++ [e]) ≠ some (.link target)) →
        (outcome (createFile path name) h).1 = .ok (path ++ "/" ++ e) := by
  have hroot := ne_root_of_make hentered hd.text
  have hname := hopen.isPlain hd hroot hslash
  obtain ⟨hnul, hdirectory⟩ := hopen.isDirectory hd hroot hname hfree
  rw [outcome_createFile_of_free hopen hd hname hfree, fileAnswer_eq_ok_iff]
  refine ⟨rfl, expandPath_eq_ok_iff_leadsBack hd hroot hname hdollar hnul hdirectory, ?_, ?_⟩
  · intro hself
    have hnone : hasNul name = false := by
      have hjoined := hopen.1
      rw [hd.hasNul_join hroot hname, Bool.or_eq_false_iff] at hjoined
      exact hjoined.2
    rw [LeadsBack, hself, ← hd.join_eq_append hroot hname, hd.realPath_join hname]
    · exact ⟨hnone, rfl⟩
    · rw [hfree]
      exact nofun
  · intro e he hplain hnone hlink
    rw [fileAnswer_eq_ok_iff]
    exact expandPath_of_plain hd hroot hname hdollar hnul hdirectory he hplain hnone hlink

theorem environment_of_make (h : Host) : (outcome make h).2.environment = h.environment := by
  obtain ⟨cause, ho⟩ | ⟨loc, -, ho⟩ := outcome_make h
  · rw [ho]
  · rw [ho]
    exact (Host.SameWays.of_accept _ _).environment

/-- A machine with one variable and a directory for workspaces. -/
def oneVariable : Host := .fresh ⟨[(["tmp"], .directory)]⟩ [("A", "b")]

theorem isReady_oneVariable : IsReady oneVariable "a.c" ["tmp"] :=
  isReady_fresh _ (by decide +kernel) rfl (by decide +kernel)

/-- The workspace of that machine, in which nothing stands yet. -/
theorem exists_entered : ∃ h, outcome make oneVariable = (.ok "/tmp/conjunct00000001", h) ∧
    StandsAt h "/tmp/conjunct00000001" ["tmp", "conjunct00000001"] ∧
    (∀ name, h.files.get? (["tmp", "conjunct00000001"] ++ [name]) = none) ∧
    h.environment = [("A", "b")] := by
  obtain ⟨h, hmake, hs, hempty⟩ := isReady_oneVariable.make
  have hpath : pathOf oneVariable (oneVariable.attempts + 1) = _ := pathOf_fresh _ _
  have hname : nameOf (oneVariable.attempts + 1) = _ := nameOf_fresh _ _
  have henvironment := environment_of_make oneVariable
  rw [hmake] at henvironment
  rw [hpath, hname] at hs
  rw [hname] at hempty
  exact ⟨h, by rw [hmake, hpath], hs, hempty, henvironment⟩

/-- A short plain name can be opened there. -/
theorem canOpen_entered (hs : StandsAt h "/tmp/conjunct00000001" ["tmp", "conjunct00000001"])
    (hempty : ∀ name, h.files.get? (["tmp", "conjunct00000001"] ++ [name]) = none)
    (hname : IsPlain name) (hnul : hasNul name = false)
    (hfits : Fits (Path.join "/tmp/conjunct00000001" name) (["tmp", "conjunct00000001"] ++ [name])) :
    CanOpen h "/tmp/conjunct00000001" name := by
  refine hs.canOpen hname hfits (by decide +kernel) hnul ?_
  rw [hempty]
  exact nofun

theorem createFile_returns_made_file_plain :
    ∃ h, (outcome make oneVariable).1 = .ok "/tmp/conjunct00000001" ∧
      h.files.IsDirect "/tmp/conjunct00000001" ["tmp", "conjunct00000001"] ∧
      '$' ∉ "/tmp/conjunct00000001".toList ∧ Path.slash ∉ "a.c.bc".toList ∧
      h.files.get? ["tmp", "conjunct00000001", "a.c.bc"] = none ∧
      CanOpen h "/tmp/conjunct00000001" "a.c.bc" ∧
      (outcome (createFile "/tmp/conjunct00000001" "a.c.bc") h).1 =
        .ok ("/tmp/conjunct00000001" ++ "/" ++ "a.c.bc") := by
  obtain ⟨h, hmake, hs, hempty, -⟩ := exists_entered
  have hslash : Path.slash ∉ "a.c.bc".toList := by decide +kernel
  have hopen : CanOpen h "/tmp/conjunct00000001" "a.c.bc" :=
    canOpen_entered hs hempty ⟨by decide, by decide, by decide, hslash⟩ (by decide +kernel)
      ⟨by decide +kernel, by decide +kernel⟩
  have hmade := congrArg Prod.fst hmake
  obtain ⟨-, hiff, hself, -⟩ := createFile_returns_made_file_iff hmade hs.direct hs.noVariable hslash
    (hempty "a.c.bc") hopen
  have hexpands : Path.expandVariables h.environment "a.c.bc" = "a.c.bc" := by
    rw [Path.expandVariables, Path.expandVariablesIn_eq_self _ (by decide +kernel),
      String.ofList_toList]
  exact ⟨h, hmade, hs.direct, hs.noVariable, hslash, hempty "a.c.bc", hopen,
    hiff.mpr (hself hexpands)⟩

/-- With a variable in its name the file is made under one name and returned under another. -/
theorem createFile_returns_other_path :
    ∃ h, (outcome make oneVariable).1 = .ok "/tmp/conjunct00000001" ∧
      h.files.IsDirect "/tmp/conjunct00000001" ["tmp", "conjunct00000001"] ∧
      '$' ∉ "/tmp/conjunct00000001".toList ∧ Path.slash ∉ "$A.bc".toList ∧
      h.files.get? ["tmp", "conjunct00000001", "$A.bc"] = none ∧
      CanOpen h "/tmp/conjunct00000001" "$A.bc" ∧
      (outcome (createFile "/tmp/conjunct00000001" "$A.bc") h).1 =
        .ok ("/tmp/conjunct00000001" ++ "/" ++ "b.bc") ∧
      (outcome (createFile "/tmp/conjunct00000001" "$A.bc") h).1 ≠
        .ok ("/tmp/conjunct00000001" ++ "/" ++ "$A.bc") := by
  obtain ⟨h, hmake, hs, hempty, henvironment⟩ := exists_entered
  have hname : IsPlain "$A.bc" := ⟨by decide, by decide, by decide, by decide +kernel⟩
  have hopen : CanOpen h "/tmp/conjunct00000001" "$A.bc" :=
    canOpen_entered hs hempty hname (by decide +kernel) ⟨by decide +kernel, by decide +kernel⟩
  obtain ⟨hnul, hdirectory⟩ := hopen.isDirectory hs.direct hs.nonroot hname (hempty "$A.bc")
  have hexpands : Path.expandVariables h.environment "$A.bc" = "b.bc" := by
    rw [henvironment]
    decide +kernel
  have hplain : IsPlain "b.bc" := ⟨by decide, by decide, by decide, by decide +kernel⟩
  have hexpand := expandPath_of_plain hs.direct hs.nonroot hname hs.noVariable hnul hdirectory
    hexpands hplain (by decide +kernel) (hs.noLinks "b.bc")
  have hanswer : (outcome (createFile "/tmp/conjunct00000001" "$A.bc") h).1 =
      .ok ("/tmp/conjunct00000001" ++ "/" ++ "b.bc") := by
    rw [outcome_createFile_of_free hopen hs.direct hname (hempty "$A.bc"), hexpand]
    rfl
  refine ⟨h, congrArg Prod.fst hmake, hs.direct, hs.noVariable, hname.noSlash, hempty "$A.bc", hopen,
    hanswer, ?_⟩
  rw [hanswer]
  decide +kernel

end Workspace

end BitcodeWrapper
