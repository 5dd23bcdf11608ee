import BitcodeWrapper.Host.Files
import BitcodeWrapper.Proofs.Path.Join

/-! Walks through directories and links. Where a walk leads depends only on the directories and links on
its way, and a walk that leads to a directory can be continued from there. -/
namespace BitcodeWrapper.Files

/-- What a walk can go on from. -/
def IsPassage : Entry → Prop
  | .directory | .link _ => True
  | _ => False

/-- All directories and links of `fs` are still there in `fs'`. -/
def KeepsPassages (fs fs' : Files) : Prop :=
  ∀ x e, fs.get? x = some e → IsPassage e → fs'.get? x = some e

/-- A name that stands for itself. -/
structure IsPlain (name : String) : Prop where
  ne_empty : name ≠ ""
  ne_dot : name ≠ "."
  ne_dots : name ≠ ".."
  noSlash : Path.slash ∉ name.toList

theorem IsPlain.notBlank {name : String} (h : IsPlain name) : ¬ (name = "" ∨ name = ".") :=
  not_or.mpr ⟨h.ne_empty, h.ne_dot⟩

/-- A name by which a walk goes on to an entry. -/
structure IsStep (name : String) : Prop where
  notBlank : ¬ (name = "" ∨ name = ".")
  notUp : name ≠ ".."
  short : name.utf8ByteSize ≤ longestName

instance (name : String) : Decidable (IsStep name) :=
  decidable_of_iff (¬ (name = "" ∨ name = ".") ∧ name ≠ ".." ∧ name.utf8ByteSize ≤ longestName)
    ⟨fun ⟨notBlank, notUp, short⟩ => ⟨notBlank, notUp, short⟩,
      fun hstep => ⟨hstep.notBlank, hstep.notUp, hstep.short⟩⟩

variable {fs fs' : Files} {follow : Bool} {budget : Nat} {name : String} {names rest : List String}
  {loc W : Location}

theorem get?_root (fs : Files) : fs.get? [] = some .directory := if_pos rfl

theorem get?_mem {x : Location} {e : Entry} (hroot : x ≠ []) (h : fs.get? x = some e) :
    (x, e) ∈ fs.entries := by
  rw [get?, if_neg hroot, List.lookup_eq_some_iff] at h
  obtain ⟨before, after, hentries, -⟩ := h
  rw [hentries]
  exact List.mem_append_right _ List.mem_cons_self

theorem walk_nil : fs.walk follow budget [] loc = .ok ⟨loc, fs.get? loc⟩ := by
  rw [walk]

theorem walk_blank (h : name = "" ∨ name = ".") :
    fs.walk follow budget (name :: rest) loc = fs.walk follow budget rest loc := by
  rw [walk, if_pos (by simpa using h)]

theorem walk_up :
    fs.walk follow budget (".." :: rest) loc = fs.walk follow budget rest loc.dropLast := by
  rw [walk, if_neg (by decide), if_pos rfl]

theorem walk_step (hstep : IsStep name) :
    fs.walk follow budget (name :: rest) loc =
      match fs.get? (loc ++ [name]) with
      | none => if rest = [] then .ok ⟨loc ++ [name], none⟩ else .error .noSuchFile
      | some .directory => fs.walk follow budget rest (loc ++ [name])
      | some (.link target) =>
        if rest = [] && !follow then .ok ⟨loc ++ [name], some (.link target)⟩
        else match budget with
          | 0 => .error .tooManyLinks
          | budget + 1 =>
            fs.walk follow budget (Path.names target ++ rest)
              (if Path.isAbsolute target then [] else loc)
      | some e => if rest = [] then .ok ⟨loc ++ [name], some e⟩ else .error .notDirectory := by
  rw [walk, if_neg (by simpa using hstep.notBlank), if_neg hstep.notUp]
  exact if_neg (Nat.not_lt.mpr hstep.short)

/-- The walks that lead somewhere, each with what it leads to. -/
inductive Walks (fs : Files) (follow : Bool) : Nat → List String → Location → Found → Prop
  | arrive {budget : Nat} {loc : Location} : Walks fs follow budget [] loc ⟨loc, fs.get? loc⟩
  | blank {budget : Nat} {name : String} {rest : List String} {loc : Location} {found : Found}
      (hblank : name = "" ∨ name = ".") (onward : Walks fs follow budget rest loc found) :
      Walks fs follow budget (name :: rest) loc found
  | up {budget : Nat} {rest : List String} {loc : Location} {found : Found}
      (onward : Walks fs follow budget rest loc.dropLast found) :
      Walks fs follow budget (".." :: rest) loc found
  | stop {budget : Nat} {name : String} {loc : Location} {e : Option Entry}
      (hstep : IsStep name) (hentry : fs.get? (loc ++ [name]) = e)
      (hstop : e ≠ some .directory) (hlink : follow = true → ∀ target, e ≠ some (.link target)) :
      Walks fs follow budget [name] loc ⟨loc ++ [name], e⟩
  | down {budget : Nat} {name : String} {rest : List String} {loc : Location} {found : Found}
      (hstep : IsStep name) (hentry : fs.get? (loc ++ [name]) = some .directory)
      (onward : Walks fs follow budget rest (loc ++ [name]) found) :
      Walks fs follow budget (name :: rest) loc found
  | jump {budget : Nat} {name target : String} {rest : List String} {loc : Location} {found : Found}
      (hstep : IsStep name) (hentry : fs.get? (loc ++ [name]) = some (.link target))
      (hlast : rest = [] → follow = true)
      (onward : Walks fs follow budget (Path.names target ++ rest)
        (if Path.isAbsolute target then [] else loc) found) :
      Walks fs follow (budget + 1) (name :: rest) loc found

theorem walks_of_walk {found : Found} (h : fs.walk follow budget names loc = .ok found) :
    fs.Walks follow budget names loc found := by
  fun_induction walk fs follow budget names loc with
  | case1 budget loc =>
    obtain rfl := Except.ok.inj h
    exact .arrive
  | case2 budget name rest loc hblank ih => exact .blank (by simpa using hblank) (ih h)
  | case3 budget rest loc hblank ih => exact .up (ih h)
  | case4 | case6 | case9 | case12 => exact nomatch h
  | case5 budget name loc hblank hup hshort next hentry =>
    cases h
    exact .stop ⟨by simpa using hblank, hup, by omega⟩ hentry nofun nofun
  | case7 budget name rest loc hblank hup hshort next hentry ih =>
    exact .down ⟨by simpa using hblank, hup, by omega⟩ hentry (ih h)
  | case8 budget name rest loc hblank hup hshort next target hentry hlast =>
    cases h
    obtain ⟨rfl, hfollow⟩ : rest = [] ∧ follow = false := by simpa using hlast
    exact .stop ⟨by simpa using hblank, hup, by omega⟩ hentry nofun (by simp [hfollow])
  | case10 name rest loc hblank hup hshort next target hentry hlast budget ih =>
    exact .jump ⟨by simpa using hblank, hup, by omega⟩ hentry (by simpa using hlast) (ih h)
  | case11 budget name loc hblank hup hshort next e hdirectory hlink hentry =>
    cases h
    refine .stop ⟨by simpa using hblank, hup, by omega⟩ hentry ?_ ?_
    · exact fun he => hdirectory (Option.some.inj he)
    · exact fun _ target he => hlink target (Option.some.inj he)

theorem walk_of_walks {found : Found} (h : fs.Walks follow budget names loc found) :
    fs.walk follow budget names loc = .ok found := by
  induction h with
  | arrive => exact walk_nil
  | blank hblank onward ih => rw [walk_blank hblank, ih]
  | up onward ih => rw [walk_up, ih]
  | @stop budget name loc e hstep hentry hstop hlink =>
    rw [walk_step hstep, hentry]
    rcases e with _ | _ | _ | _ | _ | _
    · rfl
    · rfl
    · exact absurd rfl hstop
    · have hfollow : follow = false := by
        cases follow with
        | true => exact absurd rfl (hlink rfl _)
        | false => rfl
      simp [hfollow]
    · rfl
    · rfl
  | down hstep hentry onward ih => rw [walk_step hstep, hentry, ← ih]
  | jump hstep hentry hlast onward ih =>
    rw [walk_step hstep, hentry]
    simp only
    rw [if_neg (by simpa using hlast), ih]

theorem walk_eq_ok_iff {found : Found} :
    fs.walk follow budget names loc = .ok found ↔ fs.Walks follow budget names loc found :=
  ⟨walks_of_walk, walk_of_walks⟩

theorem Walks.entry_eq {found : Found} (h : fs.Walks follow budget names loc found) :
    found.entry = fs.get? found.location := by
  induction h with
  | arrive => rfl
  | blank hblank onward ih => exact ih
  | up onward ih => exact ih
  | stop hstep hentry hstop hlink => exact hentry.symm
  | down hstep hentry onward ih => exact ih
  | jump hstep hentry hlast onward ih => exact ih

/-- Through directories a walk goes down by the names on its way. -/
theorem walks_of_directories {e : Option Entry} (hsteps : ∀ name ∈ names, IsStep name)
    (hdirectories : ∀ k < names.length, fs.get? (loc ++ names.take k) = some .directory)
    (he : fs.get? (loc ++ names) = e) (hlink : ∀ target, e ≠ some (.link target)) :
    fs.Walks follow budget names loc ⟨loc ++ names, e⟩ := by
  induction names generalizing loc with
  | nil =>
    rw [← he, List.append_nil]
    exact .arrive
  | cons name names ih =>
    obtain ⟨hstep, hsteps⟩ := List.forall_mem_cons.mp hsteps
    by_cases hentry : fs.get? (loc ++ [name]) = some .directory
    · refine .down hstep hentry ?_
      rw [List.append_cons loc name names] at he ⊢
      refine ih hsteps (fun k hk => ?_) he
      rw [← List.append_cons]
      exact hdirectories (k + 1) (Nat.succ_lt_succ hk)
    · cases names with
      | nil =>
        subst he
        exact .stop hstep rfl hentry fun _ => hlink
      | cons next rest => exact (hentry (hdirectories 1 (by simp))).elim

/-- A walk to a directory, or to where one is made, leads there as long as all on its way is kept. -/
theorem Walks.of_keepsPassages (hkeeps : KeepsPassages fs fs') (hW : fs'.get? W = some .directory)
    {found : Found} (h : fs.Walks follow budget names loc found) (hlocation : found.location = W)
    (hentry : found.entry = none ∨ found.entry = some .directory) :
    fs'.Walks follow budget names loc ⟨W, some .directory⟩ := by
  induction h with
  | @arrive budget loc =>
    obtain rfl : loc = W := hlocation
    exact hW ▸ .arrive
  | blank hblank onward ih => exact .blank hblank (ih hlocation hentry)
  | up onward ih => exact .up (ih hlocation hentry)
  | @stop budget name loc e hstep hentry' hstop hlink =>
    obtain rfl : loc ++ [name] = W := hlocation
    exact .down hstep hW (hW ▸ .arrive)
  | down hstep hentry' onward ih =>
    exact .down hstep (hkeeps _ _ hentry' trivial) (ih hlocation hentry)
  | jump hstep hentry' hlast onward ih =>
    exact .jump hstep (hkeeps _ _ hentry' trivial) hlast (ih hlocation hentry)

/-- Where a walk leads is the same as long as the directories and links are. -/
theorem Walks.of_samePassages (hkeeps : KeepsPassages fs fs') (hkeeps' : KeepsPassages fs' fs)
    {found : Found} (h : fs.Walks follow budget names loc found) :
    ∃ e, fs'.Walks follow budget names loc ⟨found.location, e⟩ := by
  induction h with
  | arrive => exact ⟨_, .arrive⟩
  | blank hblank onward ih =>
    obtain ⟨e, ih⟩ := ih
    exact ⟨e, .blank hblank ih⟩
  | up onward ih =>
    obtain ⟨e, ih⟩ := ih
    exact ⟨e, .up ih⟩
  | stop hstep hentry hstop hlink =>
    refine ⟨_, .stop hstep rfl ?_ ?_⟩
    · exact fun hd => hstop (hentry.symm.trans (hkeeps' _ _ hd trivial))
    · exact fun hf target hl => hlink hf target (hentry.symm.trans (hkeeps' _ _ hl trivial))
  | down hstep hentry onward ih =>
    obtain ⟨e, ih⟩ := ih
    exact ⟨e, .down hstep (hkeeps _ _ hentry trivial) ih⟩
  | jump hstep hentry hlast onward ih =>
    obtain ⟨e, ih⟩ := ih
    exact ⟨e, .jump hstep (hkeeps _ _ hentry trivial) hlast ih⟩

theorem cons_ends {ns : List String} (h : name :: rest = ns ∨ name :: rest = ns ++ [""]) :
    (ns = [] ∧ name = "" ∧ rest = []) ∨ ∃ ns', ns = name :: ns' ∧ (rest = ns' ∨ rest = ns' ++ [""]) := by
  rcases h with rfl | h
  · exact .inr ⟨rest, rfl, .inl rfl⟩
  · cases ns with
    | nil => exact .inl ⟨rfl, by simpa using h⟩
    | cons n ns' =>
      obtain ⟨rfl, rfl⟩ := List.cons.inj h
      exact .inr ⟨ns', rfl, .inr rfl⟩

/-- A walk to a directory is continued from there; an empty name at its end makes no difference. -/
theorem Walks.continue {found : Found} (h : fs.Walks follow budget names loc found)
    (hfound : found = ⟨W, some .directory⟩) {ns : List String}
    (hns : names = ns ∨ names = ns ++ [""]) :
    ∃ left, ∀ follow' rest, rest ≠ [] →
      fs.walk follow' budget (ns ++ rest) loc = fs.walk follow' left rest W := by
  induction h generalizing ns with
  | @arrive budget loc =>
    obtain rfl : loc = W := congrArg Found.location hfound
    obtain rfl : ns = [] := by simpa using hns
    exact ⟨budget, fun _ _ _ => rfl⟩
  | @blank budget name rest loc found hblank onward ih =>
    obtain ⟨rfl, rfl, rfl⟩ | ⟨ns', rfl, hrest⟩ := cons_ends hns
    · obtain ⟨left, hleft⟩ := ih hfound (.inl rfl)
      exact ⟨left, hleft⟩
    · obtain ⟨left, hleft⟩ := ih hfound hrest
      exact ⟨left, fun follow' rest hne => by
        rw [List.cons_append, walk_blank hblank, hleft follow' rest hne]⟩
  | up onward ih =>
    obtain ⟨-, hempty, -⟩ | ⟨ns', rfl, hrest⟩ := cons_ends hns
    · exact absurd hempty (by decide)
    obtain ⟨left, hleft⟩ := ih hfound hrest
    exact ⟨left, fun follow' rest hne => by
      rw [List.cons_append, walk_up, hleft follow' rest hne]⟩
  | stop hstep hentry hstop hlink =>
    exact absurd (congrArg Found.entry hfound) hstop
  | down hstep hentry onward ih =>
    obtain ⟨-, rfl, -⟩ | ⟨ns', rfl, hrest⟩ := cons_ends hns
    · exact absurd (.inl rfl) hstep.notBlank
    obtain ⟨left, hleft⟩ := ih hfound hrest
    exact ⟨left, fun follow' rest hne => by
      rw [List.cons_append, walk_step hstep, hentry]
      exact hleft follow' rest hne⟩
  | @jump budget name target rest loc found hstep hentry hlast onward ih =>
    obtain ⟨-, rfl, -⟩ | ⟨ns', rfl, hrest⟩ := cons_ends hns
    · exact absurd (.inl rfl) hstep.notBlank
    have hrest' : Path.names target ++ rest = Path.names target ++ ns' ∨
        Path.names target ++ rest = Path.names target ++ ns' ++ [""] := by
      rcases hrest with rfl | rfl
      · exact .inl rfl
      · exact .inr (List.append_assoc _ _ _).symm
    obtain ⟨left, hleft⟩ := ih hfound hrest'
    refine ⟨left, fun follow' rest hne => ?_⟩
    rw [List.cons_append, walk_step hstep, hentry, ← hleft follow' rest hne,
      List.append_assoc]
    simp [hne]

/-- Looking a path up is a walk, unless the path is empty or too long. -/
theorem find_eq_ok_iff {here : Location} {path : String} {found : Found} :
    fs.find here follow path = .ok found ↔
      path ≠ "" ∧ path.utf8ByteSize ≤ longestPath ∧
        fs.Walks follow linkLimit (Path.names path) (if Path.isAbsolute path then [] else here)
          found := by
  rw [find]
  split
  · simp [*]
  split
  · simp only [reduceCtorEq, false_iff, not_and]
    omega
  · rw [walk_eq_ok_iff]
    constructor
    · exact fun h => ⟨‹_›, by omega, h⟩
    · exact fun h => h.2.2

/-- An absolute path through directories leads to the location of its names. -/
theorem find_of_directories {here : Location} {path : String} {e : Option Entry}
    (hnames : Path.names path = "" :: loc) (habsolute : Path.isAbsolute path = true)
    (hshort : path.utf8ByteSize ≤ longestPath) (hsteps : ∀ name ∈ loc, IsStep name)
    (hdirectories : ∀ k < loc.length, fs.get? (loc.take k) = some .directory)
    (he : fs.get? loc = e) (hlink : ∀ target, e ≠ some (.link target)) :
    fs.find here follow path = .ok ⟨loc, e⟩ := by
  have hne : path ≠ "" := by
    rintro rfl
    exact absurd habsolute (by decide)
  refine find_eq_ok_iff.mpr ⟨hne, hshort, ?_⟩
  rw [hnames, if_pos habsolute]
  exact .blank (.inl rfl) (walks_of_directories hsteps hdirectories he hlink)

theorem stat_of_find {here : Location} {path : String} {found : Found}
    (h : fs.find here true path = .ok found) :
    fs.stat here path = match found.entry with
      | none => .error .noSuchFile
      | some e => .ok (found.location, e) := by
  obtain ⟨loc, _ | e⟩ := found
  · rw [stat, h]
  · rw [stat, h]

theorem pathExists_of_find {here : Location} {path : String} {found : Found}
    (hnul : hasNul path = false) (h : fs.find here true path = .ok found) :
    fs.pathExists here path = found.entry.isSome := by
  obtain ⟨loc, _ | e⟩ := found
  all_goals
    rw [pathExists, hnul, stat_of_find h]
    rfl

theorem isDirectory_of_find {here : Location} {path : String} {found : Found}
    (hnul : hasNul path = false) (h : fs.find here true path = .ok found) :
    fs.isDirectory here path = (found.entry == some .directory) := by
  obtain ⟨loc, _ | e⟩ := found
  · rw [isDirectory, hnul, stat_of_find h]
    rfl
  · rw [isDirectory, hnul, stat_of_find h]
    cases e <;> rfl

theorem isDirectory_iff {here : Location} {path : String} :
    fs.isDirectory here path = true ↔
      hasNul path = false ∧ ∃ loc, fs.find here true path = .ok ⟨loc, some .directory⟩ := by
  constructor
  · intro hdirectory
    have hnul : hasNul path = false := by
      rw [isDirectory, Bool.and_eq_true, Bool.not_eq_true'] at hdirectory
      exact hdirectory.1
    rcases hfind : fs.find here true path with e | ⟨loc, e⟩
    · rw [isDirectory, stat, hfind, hnul] at hdirectory
      exact nomatch hdirectory
    · rw [isDirectory_of_find hnul hfind, beq_iff_eq] at hdirectory
      exact ⟨hnul, loc, hdirectory ▸ rfl⟩
  · rintro ⟨hnul, loc, hfind⟩
    exact isDirectory_of_find hnul hfind

theorem isProgram_of_find {here : Location} {path : String} {found : Found}
    (hnul : hasNul path = false) (h : fs.find here true path = .ok found) :
    fs.isProgram here path = found.entry.any Entry.mayExecute := by
  obtain ⟨loc, _ | e⟩ := found
  all_goals
    rw [isProgram, hnul, stat_of_find h]
    rfl

/-- A plain name joined to the path of a directory is looked up in that directory. -/
theorem find_join {here : Location} {path : String} {follow' : Bool} {found : Found}
    (hpath : fs.find here follow path = .ok ⟨W, some .directory⟩) (hname : IsPlain name)
    (hlink : follow' = true → ∀ target, fs.get? (W ++ [name]) ≠ some (.link target))
    (hfound : fs.find here follow' (Path.join path name) = .ok found) :
    found = ⟨W ++ [name], fs.get? (W ++ [name])⟩ := by
  obtain ⟨hne, -, hwalks⟩ := find_eq_ok_iff.mp hpath
  obtain ⟨-, -, hwalks'⟩ := find_eq_ok_iff.mp hfound
  obtain ⟨ns, hns, hjoin⟩ := Path.names_join hne hname.noSlash
  obtain ⟨left, hleft⟩ := hwalks.continue rfl hns
  have hwalk := walk_of_walks hwalks'
  rw [hjoin, Path.isAbsolute_join hne hname.noSlash, hleft follow' [name] nofun] at hwalk
  cases walks_of_walk hwalk with
  | blank hblank onward => exact (hname.notBlank hblank).elim
  | up onward => exact (hname.ne_dots rfl).elim
  | stop hstep hentry hstop hlink' => rw [hentry]
  | down hstep hentry onward =>
    cases onward
    rfl
  | jump hstep hentry hlast onward =>
    exact (hlink (hlast rfl) _ hentry).elim

end BitcodeWrapper.Files
