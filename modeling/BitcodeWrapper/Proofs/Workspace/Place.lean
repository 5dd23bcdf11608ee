import BitcodeWrapper.Pipeline
import BitcodeWrapper.Proofs.Host.Growth
import BitcodeWrapper.Proofs.SourceFile.Found
import BitcodeWrapper.Proofs.Workspace.Creation

/-! Where a workspace is made and where the files in it are made. Their names are plain, so that none of
them leads out of its directory. -/
namespace BitcodeWrapper
open Files

/-- No name of more than two characters means anything but itself. -/
theorem isPlain_of_length {name : String} (hslash : Path.slash ∉ name.toList)
    (hlength : 2 < name.length) : IsPlain name where
  ne_empty := by rintro rfl; exact absurd hlength (by decide)
  ne_dot := by rintro rfl; exact absurd hlength (by decide)
  ne_dots := by rintro rfl; exact absurd hlength (by decide)
  noSlash := hslash

theorem slash_notMem_stem (path : String) : Path.slash ∉ (Path.stem path).toList := by
  rw [Path.stem, String.toList_ofList]
  intro h
  apply Path.slash_notMem_baseChars path.toList
  rw [← Path.cutChars_append (Path.baseChars path.toList)]
  exact List.mem_append_left _ h

/-- A stem is cut out of its path. -/
theorem notMem_stem {ch : Char} {path : String} (h : ch ∉ path.toList) : ch ∉ (Path.stem path).toList := by
  rw [Path.stem, String.toList_ofList]
  intro hmem
  apply h
  rw [← Path.headChars_append_baseChars path.toList, ← Path.cutChars_append (Path.baseChars path.toList)]
  exact List.mem_append_right _ (List.mem_append_left _ hmem)

theorem notMem_join {ch : Char} {path name : String} (hslash : ch ≠ Path.slash) (hpath : ch ∉ path.toList)
    (hname : ch ∉ name.toList) : ch ∉ (Path.join path name).toList := by
  rw [Path.join, String.toList_ofList, Path.joinChars]
  split
  · exact hname
  split
  · exact List.not_mem_append hpath hname
  · exact List.not_mem_append hpath (by simp [hslash, hname])

theorem slash_notMem_sourceFile (args : Arguments) :
    Path.slash ∉ (SourceFile.ofArguments args).name.toList := by
  rcases SourceFile.ofArguments_eq_named args with ⟨path, hpath⟩ | hnone
  · rw [hpath]
    exact Path.slash_notMem_base path
  · rw [hnone]
    exact List.not_mem_nil

namespace Pipeline

theorem slash_notMem_fileName (args : Arguments) : Path.slash ∉ (fileName args).toList := by
  rw [fileName]
  split
  · decide
  · exact slash_notMem_sourceFile args

theorem notMem_append {ch : Char} {stem extension : String} (hstem : ch ∉ stem.toList)
    (hextension : ch ∉ extension.toList) : ch ∉ (stem ++ extension).toList := by
  rw [String.toList_append]
  exact List.not_mem_append hstem hextension

theorem isPlain_append {stem extension : String} (hstem : Path.slash ∉ stem.toList)
    (hextension : Path.slash ∉ extension.toList) (hlength : 2 < extension.length) :
    IsPlain (stem ++ extension) := by
  refine isPlain_of_length (notMem_append hstem hextension) ?_
  rw [String.length_append]
  omega

end Pipeline

namespace Workspace
open BitcodeWrapper.Action

theorem isPlain_nameOf (n : Nat) : IsPlain (nameOf n) := by
  refine isPlain_of_length ?_ ?_
  · have hdigit : ∀ d < 10, Char.ofNat (48 + d) ≠ Path.slash := by decide
    rw [nameOf, String.toList_append]
    refine List.not_mem_append (by decide) ?_
    rw [eightDigits, String.toList_ofList]
    intro h
    obtain ⟨k, -, hk⟩ := List.mem_map.mp h
    exact hdigit _ (Nat.mod_lt _ (by decide)) hk
  · rw [nameOf, String.length_append]
    have : nameStem.length = 8 := by decide
    omega

/-- A workspace is made where nothing was. Its path leads to it, nothing stands in it, and nothing
changes elsewhere. -/
structure IsMade (h : Host) (path : String) (W : Location) (h' : Host) : Prop where
  missing : h.files.get? W = none
  leads : h'.Leads path W
  empty : h.files.IsTree → ∀ name, h'.files.get? (W ++ [name]) = none
  elsewhere : ∀ x, x ≠ W → Kept (h.files.get? x) (h'.files.get? x)
  inTemporary : ∀ T, h.files.find h.here true h.temporary = .ok ⟨T, some .directory⟩ →
    ∃ name, W = T ++ [name]

theorem isMade_put {h : Host} {n : Nat} {W : Location} {r : Log.Record}
    (hfree : h.files.find h.here false (pathOf h n) = .ok ⟨W, none⟩) :
    IsMade h (pathOf h n) W
      (({ h with attempts := n, files := h.files.put W .directory } : Host).accept r) := by
  obtain ⟨hne, hshort, hwalks⟩ := find_eq_ok_iff.mp hfree
  have hmissing : h.files.get? W = none := hwalks.entry_eq.symm
  have hroot := ne_root hmissing nofun
  have hput : ∀ x, (h.files.put W .directory).get? x =
      if x = W then some .directory else h.files.get? x :=
    fun x => get?_put h.files W x .directory hroot
  have hkeeps : KeepsPassages h.files (h.files.put W .directory) := by
    intro x e hx he
    rw [hput, if_neg, hx]
    rintro rfl
    exact nomatch hmissing.symm.trans hx
  have hkept : ∀ x, Kept ((h.files.put W .directory).get? x)
      ((({ h with attempts := n, files := h.files.put W .directory } : Host).accept r).files.get?
        x) :=
    Host.kept_accept { h with attempts := n, files := h.files.put W .directory } r
  refine ⟨hmissing, ?_, ?_, ?_, ?_⟩
  · refine Host.Leads.of_recordsTo ?_ (.single _ r)
    refine find_eq_ok_iff.mpr ⟨hne, hshort, ?_⟩
    exact hwalks.of_keepsPassages hkeeps (by rw [hput, if_pos rfl]) rfl (.inl rfl)
  · intro htree name
    have hbelow : (h.files.put W .directory).get? (W ++ [name]) = none := by
      rw [hput, if_neg (by simp), htree.get?_append hmissing]
    exact (hbelow ▸ hkept (W ++ [name])).eq_none
  · intro x hx
    have hsame : (h.files.put W .directory).get? x = h.files.get? x := by rw [hput, if_neg hx]
    exact hsame ▸ hkept x
  · intro T hT
    have hfound : h.files.find h.here false (Path.join h.temporary (nameOf n)) = .ok ⟨W, none⟩ :=
      hfree
    have hplace := find_join hT (isPlain_nameOf n) (fun hfollow => absurd hfollow (by decide)) hfound
    exact ⟨nameOf n, congrArg Found.location hplace⟩

theorem isMade_of_outcome {h h' : Host} {path : String}
    (hmake : outcome make h = (.ok path, h')) : ∃ W, IsMade h path W h' := by
  obtain ⟨cause, ho⟩ | ⟨W, hfree, ho⟩ := outcome_make h <;> rw [hmake] at ho
  · exact nomatch congrArg Prod.fst ho
  · obtain ⟨hpath, rfl⟩ := Prod.mk.inj ho
    obtain rfl := Except.ok.inj hpath
    exact ⟨W, isMade_put hfree⟩

/-- The making of a file touches at most the entry that its path leads to, which is there
afterwards. -/
theorem differsAt_of_createFile {directory name : String} {h h' : Host}
    {answer : Except Fault String}
    (hcreate : outcome (createFile directory name) h = (answer, h')) :
    (h' = h ∧ ∃ fault, answer = .error fault) ∨
      ∃ files loc e, h' = { h with files := files } ∧
        h.files.find h.here true (Path.join directory name) = .ok ⟨loc, e⟩ ∧
        DiffersAt h.files files loc ∧ files.get? loc ≠ none := by
  obtain ⟨fault, -, ho⟩ | ⟨files, loc, hopen, ho⟩ := outcome_createFile directory name h <;>
    obtain ⟨rfl, rfl⟩ := Prod.mk.inj (hcreate.symm.trans ho)
  · exact .inl ⟨rfl, fault, rfl⟩
  · obtain ⟨⟨e, hfind⟩, hdiffers, hthere⟩ := differsAt_of_openForWriting hopen
    exact .inr ⟨files, loc, e, rfl, hfind, hdiffers, hthere⟩

end Workspace

end BitcodeWrapper
