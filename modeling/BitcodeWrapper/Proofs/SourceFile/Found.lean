import BitcodeWrapper.Proofs.ArgumentVector.Value
import BitcodeWrapper.SourceFile

/-! The translation unit that is found on a command line, and the element that names it. -/
namespace BitcodeWrapper.SourceFile
open Arguments

variable {args : Arguments} {source : String}

/-- Whatever is found is found by its name. -/
theorem ofArguments_eq_named (args : Arguments) :
    (∃ path, ofArguments args = named path) ∨ ofArguments args = none := by
  rw [ofArguments]
  split
  · exact .inl ⟨_, rfl⟩
  · cases hfind : (args.map named).find? (·.language != .unknown) with
    | none => exact .inr rfl
    | some found =>
      obtain ⟨path, -, hpath⟩ := List.mem_map.mp (List.mem_of_find?_eq_some hfind)
      exact .inl ⟨path, hpath.symm⟩

/-- The value of the compile flag comes first. -/
theorem ofArguments_of_valueOf_ne (h : args.valueOf compileFlag ≠ "") :
    ofArguments args = named (args.valueOf compileFlag) := by
  rw [ofArguments]
  exact if_pos (bne_iff_ne.mpr h)

/-- A translation unit of a known language is found, and one element alone names it. -/
structure IsNamedBy (args : Arguments) (source : String) : Prop where
  known : (ofArguments args).language ≠ .unknown
  unique : args.filter (fun a => Path.base a = (ofArguments args).name) = [source]

namespace IsNamedBy

theorem mem (h : IsNamedBy args source) : source ∈ args ∧ Path.base source = (ofArguments args).name := by
  have hmem : source ∈ args.filter (fun a => Path.base a = (ofArguments args).name) :=
    h.unique ▸ List.mem_singleton_self source
  exact ⟨(List.mem_filter.mp hmem).1, of_decide_eq_true (List.mem_filter.mp hmem).2⟩

theorem count (h : IsNamedBy args source) : args.count source = 1 := by
  have hsame : (args.filter (fun a => Path.base a = (ofArguments args).name)).count source =
      args.count source := List.count_filter (decide_eq_true h.mem.2)
  rw [← hsame, h.unique, List.count_singleton_self]

theorem ofFile_ne_unknown (h : IsNamedBy args source) : Language.ofFile (Path.base source) ≠ .unknown := by
  have hname := h.mem.2
  have hknown := h.known
  rcases ofArguments_eq_named args with ⟨path, hpath⟩ | hnone
  · simp only [hpath, named] at hname hknown
    rw [hname]
    exact hknown
  · exact absurd (congrArg SourceFile.language hnone) hknown

/-- No flag has the extension of a source file. -/
theorem ne_of_unknown (h : IsNamedBy args source) {a : String}
    (ha : Language.ofFile (Path.base a) = .unknown) : source ≠ a := by
  rintro rfl
  exact h.ofFile_ne_unknown ha

/-- If the compile flag has a value, it is the source. -/
theorem eq_valueOf (h : IsNamedBy args source) (hvalue : args.valueOf compileFlag ≠ "") :
    args.valueOf compileFlag = source := by
  have hne : valueAfter compileFlag args ≠ "" := hvalue
  have hmem : args.valueOf compileFlag ∈
      args.filter (fun a => Path.base a = (ofArguments args).name) := by
    refine List.mem_filter.mpr ⟨valueAfter_mem hne, decide_eq_true ?_⟩
    rw [ofArguments_of_valueOf_ne hvalue, named]
  rw [h.unique] at hmem
  exact List.mem_singleton.mp hmem

end IsNamedBy

end BitcodeWrapper.SourceFile
