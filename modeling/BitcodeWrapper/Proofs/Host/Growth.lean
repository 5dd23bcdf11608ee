import BitcodeWrapper.Proofs.Host.Walk
import BitcodeWrapper.Proofs.Outcome

/-! What becomes of entries when records are copied to a file and files are opened: at other places
nothing, and directories and links stay everywhere. -/
namespace BitcodeWrapper

namespace Files

/-- The same entry, or a file with more at its end. -/
inductive Kept : Option Entry → Option Entry → Prop
  | same (e : Option Entry) : Kept e e
  | grown (content more : Bytes) (isExecutable : Bool) :
      Kept (some (.file content isExecutable)) (some (.file (content ++ more) isExecutable))

namespace Kept
variable {a b c : Option Entry}

theorem trans (hab : Kept a b) (hbc : Kept b c) : Kept a c := by
  cases hab with
  | same => exact hbc
  | grown content more isExecutable =>
    cases hbc with
    | same => exact .grown content more isExecutable
    | grown _ more' => exact List.append_assoc content more more' ▸ .grown content (more ++ more') _

theorem isSome_eq (h : Kept a b) : b.isSome = a.isSome := by
  cases h <;> rfl

theorem eq_none (h : Kept none b) : b = none := by
  cases h
  rfl

theorem eq_passage {e : Entry} (h : Kept (some e) b) (he : IsPassage e) : b = some e := by
  cases h with
  | same => rfl
  | grown => exact he.elim

theorem of_passage {e : Entry} (h : Kept a (some e)) (he : IsPassage e) : a = some e := by
  cases h with
  | same => rfl
  | grown => exact he.elim

end Kept

variable {fs fs' : Files} {here loc W x : Location} {path name : String}

theorem ne_root {o : Option Entry} (hx : fs.get? x = o) (ho : o ≠ some .directory) : x ≠ [] := by
  rintro rfl
  exact ho (hx.symm.trans (get?_root fs))

theorem get?_append {content bytes : Bytes} {isExecutable : Bool}
    (hfile : fs.get? loc = some (.file content isExecutable)) (x : Location) :
    (fs.append loc bytes).get? x =
      if x = loc then some (.file (content ++ bytes) isExecutable) else fs.get? x := by
  have hroot : loc ≠ [] := ne_root hfile nofun
  rw [append, hfile]
  exact get?_put _ _ _ _ hroot

theorem kept_append (fs : Files) (loc : Location) (bytes : Bytes) (x : Location) :
    Kept (fs.get? x) ((fs.append loc bytes).get? x) := by
  by_cases hfile : ∃ content isExecutable, fs.get? loc = some (.file content isExecutable)
  · obtain ⟨content, isExecutable, hfile⟩ := hfile
    rw [get?_append hfile]
    by_cases hx : x = loc
    · rw [if_pos hx, hx, hfile]
      exact .grown content bytes isExecutable
    · rw [if_neg hx]
      exact .same _
  · rw [append]
    split
    · exact absurd ⟨_, _, ‹_›⟩ hfile
    · exact .same _

theorem keepsPassages_of_kept (h : ∀ x, Kept (fs.get? x) (fs'.get? x)) : KeepsPassages fs fs' :=
  fun x _ hx he => (hx ▸ h x).eq_passage he

theorem keepsPassages_symm_of_kept (h : ∀ x, Kept (fs.get? x) (fs'.get? x)) : KeepsPassages fs' fs :=
  fun x _ hx he => (hx ▸ h x).of_passage he

/-- Every entry stands in a directory. -/
def IsTree (fs : Files) : Prop :=
  ∀ x name e, fs.get? (x ++ [name]) = some e → fs.get? x = some .directory

theorem isTree_of_entries (h : ∀ p ∈ fs.entries, fs.get? p.1.dropLast = some .directory) :
    fs.IsTree := by
  intro x name e he
  have hparent := h _ (get?_mem (by simp) he)
  rwa [List.dropLast_concat] at hparent

/-- Nothing lies below what is not there. -/
theorem IsTree.get?_append (htree : fs.IsTree) (hx : fs.get? x = none) (names : List String) :
    fs.get? (x ++ names) = none := by
  induction names generalizing x with
  | nil => rwa [List.append_nil]
  | cons name names ih =>
    have hnext : fs.get? (x ++ [name]) = none := by
      rcases he : fs.get? (x ++ [name]) with _ | e
      · rfl
      · exact nomatch hx.symm.trans (htree x name e he)
    rw [List.append_cons]
    exact ih hnext

theorem IsTree.of_kept (htree : fs.IsTree) (h : ∀ x, Kept (fs.get? x) (fs'.get? x)) : fs'.IsTree := by
  intro x name e he
  rcases hbefore : fs.get? (x ++ [name]) with _ | e'
  · exact nomatch (hbefore ▸ h (x ++ [name])).eq_none.symm.trans he
  · exact (htree x name e' hbefore ▸ h x).eq_passage trivial

/-- A path to a directory leads there as long as all directories and links are kept. -/
theorem find_of_keepsPassages {follow : Bool} (hkeeps : KeepsPassages fs fs')
    (h : fs.find here follow path = .ok ⟨W, some .directory⟩) :
    fs'.find here follow path = .ok ⟨W, some .directory⟩ := by
  obtain ⟨hne, hshort, hwalks⟩ := find_eq_ok_iff.mp h
  refine find_eq_ok_iff.mpr ⟨hne, hshort, ?_⟩
  exact hwalks.of_keepsPassages hkeeps (hkeeps _ _ hwalks.entry_eq.symm trivial) rfl (.inr rfl)

/-- Where a path leads is the same as long as the directories and links are. -/
theorem find_of_samePassages {follow : Bool} {found : Found} (hkeeps : KeepsPassages fs fs')
    (hkeeps' : KeepsPassages fs' fs) (h : fs.find here follow path = .ok found) :
    ∃ e, fs'.find here follow path = .ok ⟨found.location, e⟩ := by
  obtain ⟨hne, hshort, hwalks⟩ := find_eq_ok_iff.mp h
  obtain ⟨e, hwalks'⟩ := hwalks.of_samePassages hkeeps hkeeps'
  exact ⟨e, find_eq_ok_iff.mpr ⟨hne, hshort, hwalks'⟩⟩

/-- The files are the same but for one entry at most, which is no directory or link in either. -/
structure DiffersAt (fs fs' : Files) (x : Location) : Prop where
  elsewhere : ∀ y, y ≠ x → fs'.get? y = fs.get? y
  keeps : KeepsPassages fs fs'
  keptFrom : KeepsPassages fs' fs

theorem DiffersAt.refl (fs : Files) (x : Location) : DiffersAt fs fs x where
  elsewhere _ _ := rfl
  keeps _ _ hy _ := hy
  keptFrom _ _ hy _ := hy

theorem differsAt_put {e : Entry} (hroot : x ≠ []) (he : ¬ IsPassage e)
    (hbefore : ∀ e, fs.get? x = some e → ¬ IsPassage e) : DiffersAt fs (fs.put x e) x := by
  have hput : ∀ y, (fs.put x e).get? y = if y = x then some e else fs.get? y :=
    fun y => get?_put fs x y e hroot
  refine ⟨fun y hy => by rw [hput, if_neg hy], fun y e' hy he' => ?_, fun y e' hy he' => ?_⟩
  · have hyx : y ≠ x := by
      rintro rfl
      exact hbefore e' hy he'
    rw [hput, if_neg hyx, hy]
  · rw [hput] at hy
    by_cases hyx : y = x
    · rw [if_pos hyx] at hy
      cases hy
      exact absurd he' he
    · rwa [if_neg hyx] at hy

/-- Opening a file touches at most the entry that its path leads to, which is there afterwards. -/
theorem differsAt_of_openForWriting {keep : Bool} {files : Files}
    (hopen : fs.openForWriting here keep path = .ok (files, loc)) :
    (∃ e, fs.find here true path = .ok ⟨loc, e⟩) ∧ DiffersAt fs files loc ∧
      files.get? loc ≠ none := by
  rw [openForWriting] at hopen
  split at hopen
  · exact nomatch hopen
  split at hopen
  · exact nomatch hopen
  · rename_i W hfound
    have hmissing : fs.get? W = none := (find_eq_ok_iff.mp hfound).2.2.entry_eq.symm
    have hroot : W ≠ [] := ne_root hmissing nofun
    cases hopen
    refine ⟨⟨_, hfound⟩, differsAt_put hroot id (by rw [hmissing]; exact nofun), ?_⟩
    rw [get?_put _ _ _ _ hroot, if_pos rfl]
    exact nofun
  · rename_i W e hfound
    have hthere : fs.get? W = some e := (find_eq_ok_iff.mp hfound).2.2.entry_eq.symm
    cases e with
    | directory => exact nomatch hopen
    | file content isExecutable =>
      have hroot : W ≠ [] := ne_root hthere nofun
      cases hopen
      refine ⟨⟨_, hfound⟩, differsAt_put hroot id fun e he => ?_, ?_⟩
      · cases hthere.symm.trans he
        exact id
      · rw [get?_put _ _ _ _ hroot, if_pos rfl]
        exact nofun
    | link target | shell | sink =>
      cases hopen
      exact ⟨⟨_, hfound⟩, .refl fs _, by rw [hthere]; exact nofun⟩

/-- A path can be opened for writing unless it leads nowhere or to a directory, or says that it does. -/
theorem exists_openForWriting_iff {keep : Bool} :
    (∃ opened, fs.openForWriting here keep path = .ok opened) ↔
      path.toList.getLast? ≠ some Path.slash ∧
        ∃ found, fs.find here true path = .ok found ∧ found.entry ≠ some .directory := by
  rw [openForWriting]
  by_cases hslash : path.toList.getLast? = some Path.slash
  · simp [hslash]
  · rw [if_neg hslash]
    rcases fs.find here true path with e | ⟨loc, _ | e⟩
    · simp
    · simp [hslash]
    · cases e <;> simp [hslash]

end Files

namespace Host
open Files
variable {h h' : Host} {path : String} {W : Location}

/-- The path leads to a directory, without a link in last place. -/
def Leads (h : Host) (path : String) (W : Location) : Prop :=
  h.files.find h.here false path = .ok ⟨W, some .directory⟩

theorem Leads.get? (hl : h.Leads path W) : h.files.get? W = some .directory :=
  (find_eq_ok_iff.mp hl).2.2.entry_eq.symm

theorem Leads.of_keepsPassages (hl : h.Leads path W) (hhere : h'.here = h.here)
    (hkeeps : KeepsPassages h.files h'.files) : h'.Leads path W := by
  rw [Leads, hhere]
  exact find_of_keepsPassages hkeeps hl

theorem kept_accept (h : Host) (r : Log.Record) (x : Location) :
    Kept (h.files.get? x) ((h.accept r).files.get? x) := by
  rw [accept]
  split
  · simp only [writeRecord]
    split
    · exact kept_append _ _ _ _
    · exact .same _
  · exact .same _

theorem RecordsTo.kept (hr : RecordsTo h h') (x : Location) :
    Kept (h.files.get? x) (h'.files.get? x) := by
  induction hr with
  | refl => exact .same _
  | accept earlier r ih => exact ih.trans (kept_accept _ r x)

theorem Leads.of_recordsTo (hl : h.Leads path W) (hr : RecordsTo h h') : h'.Leads path W :=
  hl.of_keepsPassages hr.machine_eq.1 (keepsPassages_of_kept hr.kept)

end Host

end BitcodeWrapper
