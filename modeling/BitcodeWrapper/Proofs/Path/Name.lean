import BitcodeWrapper.Proofs.Path.Text
import Mathlib.Data.List.TakeWhile

/-! The name at the end of a path, and the stem and the extension that its last dot cuts it into. A dot
with nothing but dots before it cuts nothing off. -/
namespace BitcodeWrapper.Path

/-- The name stands after the last slash of the path. -/
def HasName (path name : String) : Prop :=
  slash ∉ name.toList ∧ (path = name ∨ ∃ front, path = front ++ "/" ++ name)

/-- Something in the text is not a dot. -/
def HasBody (text : String) : Prop := ∃ c ∈ text.toList, c ≠ '.'

/-- A name with its stem and its extension. -/
inductive IsCut : (name stem extension : String) → Prop
  | atLastDot {stem tail : String} (body : HasBody stem) (last : '.' ∉ tail.toList) :
      IsCut (stem ++ "." ++ tail) stem ("." ++ tail)
  | hidden {dots tail : String} (bare : ¬ HasBody dots) (last : '.' ∉ tail.toList) :
      IsCut (dots ++ "." ++ tail) (dots ++ "." ++ tail) ""
  | undotted {name : String} (none : '.' ∉ name.toList) : IsCut name name ""

variable {path name stem' extension' : String}

theorem exists_split_at_last {c : Char} {cs : List Char} (h : c ∈ cs) :
    ∃ before after, cs = before ++ c :: after ∧ c ∉ after := by
  obtain ⟨after, before, hreverse, hafter⟩ := List.eq_append_cons_of_mem (List.mem_reverse.mpr h)
  refine ⟨before.reverse, after.reverse, ?_, by simpa using hafter⟩
  apply List.reverse_inj.mp
  rw [hreverse]
  simp

theorem toList_append_dot (stem tail : String) :
    (stem ++ "." ++ tail).toList = stem.toList ++ '.' :: tail.toList := by
  rw [String.toList_append, String.toList_append, List.append_assoc]
  rfl

theorem HasName.base_eq (h : HasName path name) : base path = name := by
  obtain ⟨hslash, rfl | ⟨front, rfl⟩⟩ := h
  · exact base_of_notMem hslash
  · rw [base, toList_append_slash, baseChars_append _ hslash, String.ofList_toList]

theorem hasName_base (path : String) : HasName path (base path) := by
  refine ⟨slash_notMem_base path, ?_⟩
  by_cases h : slash ∈ path.toList
  · obtain ⟨before, after, htext, hafter⟩ := exists_split_at_last h
    refine .inr ⟨String.ofList before, String.toList_injective ?_⟩
    rw [base, toList_append_slash, htext, baseChars_append _ hafter, String.toList_ofList,
      String.toList_ofList]
  · exact .inl (base_of_notMem h).symm

theorem hasName_iff : HasName path name ↔ base path = name :=
  ⟨HasName.base_eq, fun h => h ▸ hasName_base path⟩

/-- What stands before the last slash has no part in the name. -/
theorem base_append_slash (front path : String) : base (front ++ "/" ++ path) = base path := by
  obtain ⟨hslash, hwhole | ⟨rest, hrest⟩⟩ := hasName_base path
  · exact HasName.base_eq ⟨hslash, .inr ⟨front, by rw [← hwhole]⟩⟩
  · refine HasName.base_eq ⟨hslash, .inr ⟨front ++ "/" ++ rest, ?_⟩⟩
    simp only [String.append_assoc] at hrest ⊢
    rw [← hrest]

theorem cutChars_of_notMem {cs : List Char} (h : '.' ∉ cs) : cutChars cs = (cs, []) := by
  rw [cutChars, List.dropWhile_eq_nil_iff.mpr (bne_of_mem_reverse h)]

theorem cutChars_of_dots {cs ds : List Char} (hcs : ¬ ∃ c ∈ cs, c ≠ '.') (hds : '.' ∉ ds) :
    cutChars (cs ++ '.' :: ds) = (cs ++ '.' :: ds, []) := by
  have hreverse : (cs ++ '.' :: ds).reverse = ds.reverse ++ '.' :: cs.reverse := by simp
  have hdots : ¬ cs.reverse.any (· != '.') = true := by simpa using hcs
  rw [cutChars, hreverse, List.dropWhile_append_of_pos (bne_of_mem_reverse hds),
    List.dropWhile_cons_of_neg (by simp)]
  exact if_neg hdots

theorem IsCut.cutChars_eq (h : IsCut name stem' extension') :
    cutChars name.toList = (stem'.toList, extension'.toList) := by
  cases h with
  | atLastDot body last =>
    rw [toList_append_dot, cutChars_append_extension body last, String.toList_append]
    rfl
  | hidden bare last =>
    rw [toList_append_dot, cutChars_of_dots bare last]
    rfl
  | undotted none => exact cutChars_of_notMem none

theorem exists_isCut (name : String) : ∃ stem extension, IsCut name stem extension := by
  by_cases hdot : '.' ∈ name.toList
  · obtain ⟨before, after, htext, hafter⟩ := exists_split_at_last hdot
    have hname : name = String.ofList before ++ "." ++ String.ofList after := by
      apply String.toList_injective
      rw [toList_append_dot, htext, String.toList_ofList, String.toList_ofList]
    have hlast : '.' ∉ (String.ofList after).toList := by rwa [String.toList_ofList]
    rw [hname]
    by_cases hbody : HasBody (String.ofList before)
    · exact ⟨_, _, .atLastDot hbody hlast⟩
    · exact ⟨_, _, .hidden hbody hlast⟩
  · exact ⟨name, "", .undotted hdot⟩

theorem IsCut.parts_eq (h : IsCut (base path) stem' extension') :
    stem path = stem' ∧ extension path = extension' := by
  have hcut := h.cutChars_eq
  rw [base, String.toList_ofList] at hcut
  rw [stem, extension, hcut, String.ofList_toList, String.ofList_toList]
  exact ⟨rfl, rfl⟩

theorem HasName.parts_eq (h : HasName path name) (hcut : IsCut name stem' extension') :
    stem path = stem' ∧ extension path = extension' := by
  rw [← h.base_eq] at hcut
  exact hcut.parts_eq

/-- There is one way to cut a name. -/
theorem isCut_base_iff :
    IsCut (base path) stem' extension' ↔ stem path = stem' ∧ extension path = extension' := by
  refine ⟨IsCut.parts_eq, ?_⟩
  rintro ⟨rfl, rfl⟩
  obtain ⟨s, e, hcut⟩ := exists_isCut (base path)
  obtain ⟨rfl, rfl⟩ := hcut.parts_eq
  exact hcut

theorem dot_append_ne_empty (tail : String) : "." ++ tail ≠ "" := fun h => by
  simpa using congrArg String.toList h

theorem extension_eq_iff {tail : String} (last : '.' ∉ tail.toList) :
    extension path = "." ++ tail ↔ ∃ stem, HasBody stem ∧ HasName path (stem ++ "." ++ tail) := by
  constructor
  · intro hextension
    obtain ⟨s, e, hcut⟩ := exists_isCut (base path)
    have he := hcut.parts_eq.2.symm.trans hextension
    generalize hname : base path = name at hcut
    cases hcut with
    | atLastDot body _ =>
      refine ⟨s, body, hasName_iff.mpr ?_⟩
      rw [hname, String.append_assoc, he, String.append_assoc]
    | hidden _ _ => exact absurd he.symm (dot_append_ne_empty tail)
    | undotted _ => exact absurd he.symm (dot_append_ne_empty tail)
  · rintro ⟨stem, hbody, hname⟩
    exact (hname.parts_eq (.atLastDot hbody last)).2

end BitcodeWrapper.Path
