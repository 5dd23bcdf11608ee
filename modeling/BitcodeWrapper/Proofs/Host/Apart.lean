import BitcodeWrapper.Proofs.Host.Agreement
import BitcodeWrapper.Proofs.Host.Direct

/-! Machines that agree off the places of others. Where a path of plain names leads depends on the entries on
its way only, so it leads to the same place whatever happens elsewhere. -/
namespace BitcodeWrapper

namespace Files
variable {fs fs' : Files} {follow : Bool} {budget : Nat} {here here' W loc x : Location}
  {names rest : List String} {name path : String} {found : Found}

theorem walk_long (hname : IsPlain name) (hlong : longestName < name.utf8ByteSize) :
    fs.walk follow budget (name :: rest) loc = .error .nameTooLong := by
  rw [walk, if_neg (by simpa using hname.notBlank), if_neg hname.ne_dots, if_pos hlong]

/-- Plain names lead the same way where the same entries stand on it, as long as none of these is a link. -/
theorem walk_eq_of_same (hplain : ∀ name ∈ names, IsPlain name)
    (hsame : ∀ x, x <+: names → fs'.get? (loc ++ x) = fs.get? (loc ++ x))
    (hlinks : ∀ x, x <+: names → ∀ target, fs.get? (loc ++ x) ≠ some (.link target)) :
    fs'.walk follow budget names loc = fs.walk follow budget names loc := by
  induction names generalizing loc with
  | nil =>
    have hhere := hsame [] List.prefix_rfl
    rw [List.append_nil] at hhere
    rw [walk_nil, walk_nil, hhere]
  | cons name rest ih =>
    obtain ⟨hname, hrest⟩ := List.forall_mem_cons.mp hplain
    by_cases hshort : name.utf8ByteSize ≤ longestName
    · have hstep : IsStep name := ⟨hname.notBlank, hname.ne_dots, hshort⟩
      have hfirst : [name] <+: name :: rest := List.cons_prefix_cons.mpr ⟨rfl, List.nil_prefix⟩
      have hnext : ∀ x, x <+: rest → name :: x <+: name :: rest :=
        fun x hx => List.cons_prefix_cons.mpr ⟨rfl, hx⟩
      have honward : fs'.walk follow budget rest (loc ++ [name]) =
          fs.walk follow budget rest (loc ++ [name]) := by
        refine ih hrest (fun x hx => ?_) fun x hx => ?_
        · rw [← List.append_cons]
          exact hsame _ (hnext x hx)
        · rw [← List.append_cons]
          exact hlinks _ (hnext x hx)
      rw [walk_step hstep, walk_step hstep, hsame _ hfirst]
      rcases hentry : fs.get? (loc ++ [name]) with _ | e
      · rfl
      · cases e with
        | directory => exact honward
        | link target => exact (hlinks _ hfirst target hentry).elim
        | file | shell | sink => rfl
    · have hlong : longestName < name.utf8ByteSize := Nat.lt_of_not_le hshort
      rw [walk_long hname hlong, walk_long hname hlong]

theorem find_eq_of_same (ht : IsTextOf path loc) (hroot : loc ≠ [])
    (hsame : ∀ x, x <+: loc → fs'.get? x = fs.get? x)
    (hlinks : ∀ x, x <+: loc → ∀ target, fs.get? x ≠ some (.link target)) :
    fs'.find here' follow path = fs.find here follow path := by
  have hwalk : fs'.walk follow linkLimit loc [] = fs.walk follow linkLimit loc [] :=
    walk_eq_of_same ht.plain hsame hlinks
  simp only [find, ht.names_eq hroot, ht.isAbsolute, ↓reduceIte, walk_blank (.inl rfl), hwalk]

/-- A text leads to the location that it spells out, if no link stands on the way. -/
theorem IsTextOf.location_of_find (ht : IsTextOf path loc) (hroot : loc ≠ [])
    (hlinks : ∀ x, x <+: loc → ∀ target, fs.get? x ≠ some (.link target))
    (hfind : fs.find here follow path = .ok found) : found.location = loc := by
  obtain ⟨-, -, hwalks⟩ := find_eq_ok_iff.mp hfind
  rw [if_pos ht.isAbsolute, ht.names_eq hroot] at hwalks
  have honward := walks_of_walk ((walk_blank (.inl rfl)).symm.trans (walk_of_walks hwalks))
  exact (honward.straight ht.plain fun x hx _ => hlinks x hx).1

theorem IsTextOf.getLast?_ne_slash (ht : IsTextOf path loc) (hroot : loc ≠ []) :
    path.toList.getLast? ≠ some Path.slash := by
  rw [ht.text]
  exact Path.getLast?_text hroot (fun name hname => (ht.plain name hname).ne_empty)
    fun name hname => (ht.plain name hname).noSlash

/-- On its way to an entry a walk over plain names meets directories only. -/
theorem Walks.directories (h : fs.Walks follow budget names loc found)
    (hplain : ∀ name ∈ names, IsPlain name)
    (hlinks : ∀ x, x <+: names → x ≠ [] → ∀ target, fs.get? (loc ++ x) ≠ some (.link target)) :
    ∀ x, x <+: names → x ≠ [] → x ≠ names → fs.get? (loc ++ x) = some .directory := by
  induction h with
  | arrive => exact fun x hx hne => (hne (List.prefix_nil.mp hx)).elim
  | blank hblank onward ih => exact ((hplain _ List.mem_cons_self).notBlank hblank).elim
  | up onward ih => exact ((hplain _ List.mem_cons_self).ne_dots rfl).elim
  | stop hstep hentry hstop hlink =>
    intro x hx hne hwhole
    obtain rfl | ⟨y, rfl, hy⟩ := List.prefix_cons_iff.mp hx
    · exact (hne rfl).elim
    · rw [List.prefix_nil.mp hy] at hwhole
      exact (hwhole rfl).elim
  | @down budget name rest loc found hstep hentry onward ih =>
    intro x hx hne hwhole
    obtain rfl | ⟨y, rfl, hy⟩ := List.prefix_cons_iff.mp hx
    · exact (hne rfl).elim
    by_cases hlast : y = []
    · rwa [hlast]
    · rw [List.append_cons]
      refine ih (fun n hn => hplain n (List.mem_cons_of_mem name hn)) (fun z hz _ target => ?_) y hy hlast
        fun heq => hwhole (congrArg _ heq)
      rw [← List.append_cons]
      exact hlinks (name :: z) (List.cons_prefix_cons.mpr ⟨rfl, hz⟩) nofun target
  | @jump budget name target rest loc found hstep hentry hlast onward ih =>
    exact (hlinks [name] (List.cons_prefix_cons.mpr ⟨rfl, List.nil_prefix⟩) nofun _ hentry).elim

/-- Directories lead to a place, and no link stands there or below. -/
structure IsClear (fs : Files) (W : Location) : Prop where
  above : ∀ x, x <+: W → x ≠ W → fs.get? x = some .directory
  noLinks : ∀ x, W <+: x → ∀ target, fs.get? x ≠ some (.link target)

theorem IsClear.noLinks_on_way (hc : fs.IsClear W) (hx : x <+: W ++ names) (target : String) :
    fs.get? x ≠ some (.link target) := by
  rcases List.prefix_or_prefix_of_prefix hx (List.prefix_append W names) with habove | hbelow
  · by_cases heq : x = W
    · exact hc.noLinks x (heq ▸ List.prefix_rfl) target
    · rw [hc.above x habove heq]
      exact nofun
  · exact hc.noLinks x hbelow target

theorem IsClear.of_kept (hc : fs.IsClear W) (h : ∀ x, Kept (fs.get? x) (fs'.get? x)) :
    fs'.IsClear W where
  above x hx hne := (hc.above x hx hne ▸ h x).eq_passage trivial
  noLinks x hx target hlink := hc.noLinks x hx target ((hlink ▸ h x).of_passage trivial)

/-- Whatever is found below a clear place is found in a directory. -/
theorem IsClear.isDirect (hc : fs.IsClear W) (ht : IsTextOf path W) (hname : IsPlain name)
    (hfind : fs.find here follow (Path.join path name) = .ok found) :
    fs.IsDirect path W ∧ found.location = W ++ [name] := by
  have hjoin := ht.join hname
  refine ⟨⟨ht.text, ht.plain, fun x hx => ?_⟩,
    hjoin.location_of_find (by simp) (fun x hx => hc.noLinks_on_way hx) hfind⟩
  obtain ⟨-, -, hwalks⟩ := find_eq_ok_iff.mp hfind
  rw [if_pos hjoin.isAbsolute, hjoin.names_eq (by simp)] at hwalks
  have honward := walks_of_walk ((walk_blank (.inl rfl)).symm.trans (walk_of_walks hwalks))
  by_cases hroot : x = []
  · rw [hroot]
    exact get?_root fs
  · refine honward.directories hjoin.plain (fun y hy _ => hc.noLinks_on_way hy) x
      (hx.trans (List.prefix_append _ _)) hroot ?_
    rintro rfl
    have hlength := hx.length_le
    rw [List.length_append, List.length_singleton] at hlength
    omega

/-- What becomes of the entry of a file that is opened. -/
def emptied (fs : Files) (loc : Location) : Option Entry → Files
  | none => fs.put loc (.file [] false)
  | some (.file _ isExecutable) => fs.put loc (.file [] isExecutable)
  | some _ => fs

theorem openForWriting_of_find {e : Option Entry} (hslash : path.toList.getLast? ≠ some Path.slash)
    (hfind : fs.find here true path = .ok ⟨loc, e⟩) :
    fs.openForWriting here false path =
      if e = some .directory then .error .isDirectory else .ok (fs.emptied loc e, loc) := by
  rw [openForWriting, if_neg hslash, hfind]
  rcases e with _ | e
  · rfl
  · cases e <;> simp [emptied]

theorem openForWriting_of_error {e : Errno} (hslash : path.toList.getLast? ≠ some Path.slash)
    (hfind : fs.find here true path = .error e) :
    fs.openForWriting here false path = .error e := by
  rw [openForWriting, if_neg hslash, hfind]

/-- The files are the same but in some places, and but for the copies of logs. -/
structure SameOff (apart copied : Set Location) (fs fs' : Files) : Prop where
  same : ∀ x ∉ apart, x ∉ copied → fs'.get? x = fs.get? x
  alike : ∀ x ∉ apart, Alike (fs.get? x) (fs'.get? x)

namespace SameOff
variable {apart apart' copied : Set Location} {fs'' : Files}

theorem refl (fs : Files) : SameOff apart copied fs fs := ⟨fun _ _ _ => rfl, fun _ _ => .same _⟩

theorem symm (h : SameOff apart copied fs fs') : SameOff apart copied fs' fs where
  same x hx hcopied := (h.same x hx hcopied).symm
  alike x hx := (h.alike x hx).symm

theorem trans (h : SameOff apart copied fs fs') (h' : SameOff apart copied fs' fs'') :
    SameOff apart copied fs fs'' where
  same x hx hcopied := (h'.same x hx hcopied).trans (h.same x hx hcopied)
  alike x hx := (h.alike x hx).trans (h'.alike x hx)

theorem mono (h : SameOff apart copied fs fs') (hsub : apart ⊆ apart') :
    SameOff apart' copied fs fs' where
  same x hx := h.same x fun hmem => hx (hsub hmem)
  alike x hx := h.alike x fun hmem => hx (hsub hmem)

theorem of_eq_off (h : ∀ x ∉ apart, fs'.get? x = fs.get? x) : SameOff apart copied fs fs' where
  same x hx _ := h x hx
  alike x hx := (h x hx).symm ▸ .same _

/-- The same entry is made in both. -/
theorem put (h : SameOff apart copied fs fs') (hroot : loc ≠ []) (e : Entry) :
    SameOff apart copied (fs.put loc e) (fs'.put loc e) := by
  refine ⟨fun x hx hcopied => ?_, fun x hx => ?_⟩
  · rw [get?_put _ _ _ _ hroot, get?_put _ _ _ _ hroot, h.same x hx hcopied]
  · rw [get?_put _ _ _ _ hroot, get?_put _ _ _ _ hroot]
    split
    · exact .same _
    · exact h.alike x hx

theorem remove (h : SameOff apart copied fs fs') (hroot : loc ≠ []) :
    SameOff apart copied (fs.remove loc) (fs'.remove loc) := by
  refine ⟨fun x hx hcopied => ?_, fun x hx => ?_⟩
  · rw [get?_remove _ _ _ hroot, get?_remove _ _ _ hroot, h.same x hx hcopied]
  · rw [get?_remove _ _ _ hroot, get?_remove _ _ _ hroot]
    split
    · exact .same _
    · exact h.alike x hx

theorem emptied (h : SameOff apart copied fs fs') (hroot : loc ≠ []) (e : Option Entry) :
    SameOff apart copied (fs.emptied loc e) (fs'.emptied loc e) := by
  rcases e with _ | e
  · exact h.put hroot _
  · cases e with
    | file => exact h.put hroot _
    | _ => exact h

end SameOff

/-- Off some places the directories and links are the same, and in these places there are no links. -/
structure WaysOff (inside : Set Location) (fs₀ fs : Files) : Prop where
  passages : ∀ x ∉ inside, ∀ e, IsPassage e → (fs.get? x = some e ↔ fs₀.get? x = some e)
  noLinks : ∀ x ∈ inside, ∀ target, fs.get? x ≠ some (.link target)

namespace WaysOff
variable {inside : Set Location} {fs₀ : Files}

theorem of_keepsPassages (h : WaysOff inside fs₀ fs) (hkeeps : KeepsPassages fs fs')
    (hkept : KeepsPassages fs' fs) : WaysOff inside fs₀ fs' where
  passages x hx e he :=
    ⟨fun hfound => (h.passages x hx e he).mp (hkept x e hfound he),
      fun hfound => hkeeps x e ((h.passages x hx e he).mpr hfound) he⟩
  noLinks x hx target hlink := h.noLinks x hx target (hkept x _ hlink trivial)

theorem of_accept {h : Host} (hw : WaysOff inside fs₀ h.files) (r : Log.Record) :
    WaysOff inside fs₀ (h.accept r).files :=
  hw.of_keepsPassages (keepsPassages_of_kept (Host.kept_accept h r))
    (keepsPassages_symm_of_kept (Host.kept_accept h r))

theorem put (h : WaysOff inside fs₀ fs) (hroot : loc ≠ []) (hloc : loc ∈ inside) :
    WaysOff inside fs₀ (fs.put loc .directory) where
  passages x hx e he := by
    have hne : x ≠ loc := by
      rintro rfl
      exact hx hloc
    rw [get?_put _ _ _ _ hroot, if_neg hne]
    exact h.passages x hx e he
  noLinks x hx target := by
    rw [get?_put _ _ _ _ hroot]
    split
    · exact nofun
    · exact h.noLinks x hx target

theorem remove (h : WaysOff inside fs₀ fs) (hroot : loc ≠ []) (hloc : ∀ x, loc <+: x → x ∈ inside) :
    WaysOff inside fs₀ (fs.remove loc) where
  passages x hx e he := by
    rw [get?_remove _ _ _ hroot, if_neg fun hprefix => hx (hloc x (List.isPrefixOf_iff_prefix.mp hprefix))]
    exact h.passages x hx e he
  noLinks x hx target := by
    rw [get?_remove _ _ _ hroot]
    split
    · exact nofun
    · exact h.noLinks x hx target

/-- A place stays clear as long as the ways to it are kept. -/
theorem isClear (h : WaysOff inside fs₀ fs)
    (habove : ∀ x, x <+: W → x ≠ W → x ∉ inside ∧ fs₀.get? x = some .directory)
    (hlinks : ∀ x, W <+: x → ∀ target, fs₀.get? x ≠ some (.link target)) : fs.IsClear W where
  above x hx hne := by
    obtain ⟨hx, hdirectory⟩ := habove x hx hne
    exact (h.passages x hx .directory trivial).mpr hdirectory
  noLinks x hx target hlink := by
    by_cases hinside : x ∈ inside
    · exact h.noLinks x hinside target hlink
    · exact hlinks x hx target ((h.passages x hinside (.link target) trivial).mp hlink)

end WaysOff

end Files

namespace Host
open Files

variable {apart copied : Set Location} {h h' : Host} {W loc x : Location} {names : List String}
  {path : String}

/-- The machines agree off the places of others, and but for the copies of logs. They may have launched
their commands while others had done more or less, and their counters may stand elsewhere. -/
structure AgreesOff (apart copied : Set Location) (h h' : Host) : Prop where
  own : h' = { h with files := h'.files, attempts := h'.attempts, launches := h'.launches }
  requests : h'.launches.map Launch.request = h.launches.map Launch.request
  files : SameOff apart copied h.files h'.files

theorem accept_with (h : Host) (files : Files) (attempts : Nat) (launches : List Launch)
    (r : Log.Record) :
    ({ h with files := files, attempts := attempts, launches := launches } : Host).accept r =
      { h.accept r with
        files := (({ h with files := files } : Host).accept r).files
        attempts := attempts
        launches := launches } := by
  simp only [accept, writeRecord]
  split <;> rfl

/-- A record shows in the copy of the log only. -/
theorem sameOff_accept (hcopied : ∀ loc, h.logging.copyTo = some loc → loc ∈ copied) (r : Log.Record) :
    SameOff apart copied h.files (h.accept r).files where
  same x _ hx := (Agrees.of_accept h r).elsewhere x fun hcopy => hx (hcopied x hcopy)
  alike x _ := .of_kept (kept_accept h r x)

namespace AgreesOff

theorem logging_eq (ha : AgreesOff apart copied h h') : h'.logging = h.logging := by rw [ha.own]

/-- What is logged comes from the same place. -/
theorem ownRecord_eq (ha : AgreesOff apart copied h h') : h'.ownRecord = h.ownRecord := by
  rw [ha.own]
  rfl

theorem environment_eq (ha : AgreesOff apart copied h h') : h'.environment = h.environment := by
  rw [ha.own]

theorem withFiles (ha : AgreesOff apart copied h h') {fs fs' : Files}
    (hfiles : SameOff apart copied fs fs') :
    AgreesOff apart copied { h with files := fs } { h' with files := fs' } where
  own := by rw [ha.own]
  requests := ha.requests
  files := hfiles

theorem withAttempts (ha : AgreesOff apart copied h h') (n n' : Nat) :
    AgreesOff apart copied { h with attempts := n } { h' with attempts := n' } where
  own := by rw [ha.own]
  requests := ha.requests
  files := ha.files

theorem withLaunches (ha : AgreesOff apart copied h h') {ls ls' : List Launch}
    (hls : ls'.map Launch.request = ls.map Launch.request) :
    AgreesOff apart copied { h with launches := ls } { h' with launches := ls' } where
  own := by rw [ha.own]
  requests := hls
  files := ha.files

theorem withOutput (ha : AgreesOff apart copied h h') (bytes : Bytes) :
    AgreesOff apart copied { h with output := h.output ++ bytes }
      { h' with output := h'.output ++ bytes } where
  own := by rw [ha.own]
  requests := ha.requests
  files := ha.files

theorem withDiagnostics (ha : AgreesOff apart copied h h') (text : String) :
    AgreesOff apart copied { h with diagnostics := h.diagnostics ++ text }
      { h' with diagnostics := h'.diagnostics ++ text } where
  own := by rw [ha.own]
  requests := ha.requests
  files := ha.files

/-- A record that both write leaves them as they are to each other. -/
theorem accept (ha : AgreesOff apart copied h h')
    (hcopied : ∀ loc, h.logging.copyTo = some loc → loc ∈ copied) (r : Log.Record) :
    AgreesOff apart copied (h.accept r) (h'.accept r) where
  own := by
    have hwith := accept_with h h'.files h'.attempts h'.launches r
    rw [← ha.own] at hwith
    rw [attempts_accept, launches_accept, hwith]
  requests := by rw [launches_accept, launches_accept, ha.requests]
  files :=
    (sameOff_accept hcopied r).symm.trans
      (ha.files.trans (sameOff_accept (ha.logging_eq ▸ hcopied) r))

/-- Below a clear place of one's own a path leads to the same entry. -/
theorem find_eq (ha : AgreesOff apart copied h h') (hown : ∀ x, W <+: x → x ∉ apart ∧ x ∉ copied)
    (hroot : W ≠ []) (hc : h.files.IsClear W) (hc' : h'.files.IsClear W)
    (ht : IsTextOf path (W ++ names)) (follow : Bool) :
    h'.files.find h'.here follow path = h.files.find h.here follow path := by
  have hne : W ++ names ≠ [] := fun hnil => hroot (List.append_eq_nil_iff.mp hnil).1
  refine find_eq_of_same ht hne (fun x hx => ?_) fun x hx => hc.noLinks_on_way hx
  have hsame : W <+: x → h'.files.get? x = h.files.get? x :=
    fun hbelow => ha.files.same x (hown x hbelow).1 (hown x hbelow).2
  rcases List.prefix_or_prefix_of_prefix hx (List.prefix_append W names) with habove | hbelow
  · by_cases heq : x = W
    · exact hsame (heq ▸ List.prefix_rfl)
    · rw [hc.above x habove heq, hc'.above x habove heq]
  · exact hsame hbelow

end AgreesOff

end Host

end BitcodeWrapper
