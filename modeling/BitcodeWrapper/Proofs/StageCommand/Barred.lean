import BitcodeWrapper.Proofs.Path.Text
import BitcodeWrapper.Proofs.StageCommand.Emit
import BitcodeWrapper.Proofs.StageCommand.Sanitizers

/-! The two command lines for clang side by side. What must not reach the bitcode is left out of the first
and kept in the second, so that the object file is still built with it. -/
namespace BitcodeWrapper.StageCommand
open Arguments
open SourceFile (compileFlag)

variable {args kept body : Arguments} {bitcode transformed : String}

/-- A sanitizer begins with a dash. -/
theorem head?_of_matchesAll {a : String} (h : sanitizers.matchesAll a = true) :
    a.toList.head? = some '-' := by
  obtain ⟨first, names, -, -, htext⟩ := listsSanitizers_iff.mp (matchesAll_sanitizers_iff.mp h)
  rw [htext]
  rfl

theorem not_isBarred_of_isAbsolute (habsolute : Path.isAbsolute bitcode = true) :
    ¬ IsBarred bitcode := by
  rintro (hlisted | hmatches)
  · have hrelative : ∀ flag ∈ forbiddenFlags, Path.isAbsolute flag = false := by decide +kernel
    exact absurd habsolute (by rw [hrelative bitcode hlisted]; decide)
  · rw [Path.isAbsolute_iff, head?_of_matchesAll hmatches] at habsolute
    exact absurd habsolute (by decide)

theorem not_isBarred_of_added (habsolute : Path.isAbsolute bitcode = true) {a : String}
    (ha : a = bitcode ∨ a ∈ ownElements) : ¬ IsBarred a := by
  have hown : ∀ a ∈ ownElements, ¬ IsBarred a := by decide +kernel
  rcases ha with rfl | ha
  · exact not_isBarred_of_isAbsolute habsolute
  · exact hown a ha

theorem not_isBarred_of_mem_emitBitcode (habsolute : Path.isAbsolute bitcode = true)
    (args : Arguments) : ∀ a ∈ emitBitcode args bitcode, ¬ IsBarred a := by
  obtain ⟨rest, -, hline⟩ := emitBitcode_eq_append (ne_empty_of_isAbsolute habsolute) args
  have hadded : ∀ a ∈ ["-emit-llvm", outputFlag, bitcode, unusedArgumentFlag],
      a = bitcode ∨ a ∈ ownElements := by simp [ownElements]
  rw [hline]
  intro a ha
  rcases List.mem_append.mp ha with ha | ha
  · exact of_decide_eq_true (List.mem_filter.mp ha).2
  · exact not_isBarred_of_added habsolute (hadded a ha)

/-- What stage one leaves out on purpose stage three keeps. -/
theorem buildBitcode_keeps_barred (habsolute : Path.isAbsolute bitcode = true)
    (htransformed : Path.isAbsolute transformed = true) (hkept : DropsPair languageFlag args kept)
    (hbody : DropsPair compileFlag kept body) :
    body <+: buildBitcode args transformed ∧
      (body.Sublist args ∧
        (buildBitcode args transformed).filter IsBarred = body.filter IsBarred) ∧
      ∀ a ∈ emitBitcode args bitcode, ¬ IsBarred a := by
  obtain ⟨added, hline, -, hadded⟩ :=
    buildBitcode_eq_body_append (ne_empty_of_isAbsolute htransformed) hkept hbody
  have hnone : added.filter IsBarred = [] := List.filter_eq_nil_iff.mpr fun a ha => by
    simpa using not_isBarred_of_added htransformed (hadded a ha)
  refine ⟨⟨added, hline.symm⟩, ⟨hbody.sublist.trans hkept.sublist, ?_⟩,
    not_isBarred_of_mem_emitBitcode habsolute args⟩
  rw [hline, List.filter_append, hnone, List.append_nil]

/-- A switch given on both sides of the source is kept twice, with the sanitizer in its place. -/
theorem buildBitcode_keeps_barred_repeated :
    Path.isAbsolute "/w/x.c.bc" = true ∧ Path.isAbsolute "/w/x.c.opt.bc" = true ∧
      DropsPair languageFlag ["-g", "-x", "c", "-fsanitize=thread", "-c", "x.c", "-g", "-o", "x.o"]
        ["-g", "-fsanitize=thread", "-c", "x.c", "-g", "-o", "x.o"] ∧
      DropsPair compileFlag ["-g", "-fsanitize=thread", "-c", "x.c", "-g", "-o", "x.o"]
        ["-g", "-fsanitize=thread", "-g", "-o", "x.o"] ∧
      (buildBitcode ["-g", "-x", "c", "-fsanitize=thread", "-c", "x.c", "-g", "-o", "x.o"]
        "/w/x.c.opt.bc").filter IsBarred = ["-g", "-fsanitize=thread", "-g"] ∧
      ∀ a ∈ emitBitcode ["-g", "-x", "c", "-fsanitize=thread", "-c", "x.c", "-g", "-o", "x.o"]
        "/w/x.c.bc", ¬ IsBarred a := by
  have habsolute : Path.isAbsolute "/w/x.c.bc" = true := by decide +kernel
  have htransformed : Path.isAbsolute "/w/x.c.opt.bc" = true := by decide +kernel
  have hkept : DropsPair languageFlag
      ["-g", "-x", "c", "-fsanitize=thread", "-c", "x.c", "-g", "-o", "x.o"]
      ["-g", "-fsanitize=thread", "-c", "x.c", "-g", "-o", "x.o"] :=
    @DropsPair.pair languageFlag ["-g"] ["-fsanitize=thread", "-c", "x.c", "-g", "-o", "x.o"] "c"
      (by decide)
  have hbody : DropsPair compileFlag ["-g", "-fsanitize=thread", "-c", "x.c", "-g", "-o", "x.o"]
      ["-g", "-fsanitize=thread", "-g", "-o", "x.o"] :=
    @DropsPair.pair compileFlag ["-g", "-fsanitize=thread"] ["-g", "-o", "x.o"] "x.c" (by decide)
  obtain ⟨-, ⟨-, hsame⟩, hnone⟩ := buildBitcode_keeps_barred habsolute htransformed hkept hbody
  exact ⟨habsolute, htransformed, hkept, hbody, hsame.trans (by decide +kernel), hnone⟩

end BitcodeWrapper.StageCommand
