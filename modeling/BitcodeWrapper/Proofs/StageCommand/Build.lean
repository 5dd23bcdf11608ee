import BitcodeWrapper.Proofs.ArgumentVector.Value
import BitcodeWrapper.StageCommand

/-! The command line that builds the object file. It names the bitcode and its language after all that is
kept of the arguments; only a compile flag that would end these takes the language flag with it. -/
namespace BitcodeWrapper.StageCommand
open Arguments
open SourceFile (compileFlag)

theorem ne_empty_of_isAbsolute {path : String} (h : Path.isAbsolute path = true) : path ≠ "" := by
  rintro rfl
  exact absurd h (by decide)

/-- The command line of stage one ends with its output. -/
theorem suffix_emitBitcode {bitcode : String} (hbitcode : bitcode ≠ "") (args : Arguments) :
    [outputFlag, bitcode, unusedArgumentFlag] <:+ emitBitcode args bitcode := by
  rw [emitBitcode]
  simp only [adding_empty (show unusedArgumentFlag ≠ "" by decide),
    adding_of_ne (show outputFlag ≠ "" by decide) hbitcode, List.append_assoc]
  exact List.suffix_append _ _

/-- The command line of stage three ends with its source. -/
theorem suffix_buildBitcode {bitcode : String} (hbitcode : bitcode ≠ "") (args : Arguments) :
    [compileFlag, bitcode, unusedArgumentFlag] <:+ buildBitcode args bitcode := by
  rw [buildBitcode]
  simp only [adding_empty (show unusedArgumentFlag ≠ "" by decide),
    adding_of_ne (show compileFlag ≠ "" by decide) hbitcode, List.append_assoc]
  exact List.suffix_append _ _

/-- The bitcode takes the place of the source once both flags are out of the way. -/
theorem buildBitcode_eq {args kept : Arguments} {bitcode : String} (hbitcode : bitcode ≠ "")
    (hkept : DropsPair languageFlag args kept) :
    buildBitcode args bitcode =
      (kept ++ [languageFlag, "ir"]).without compileFlag true ++
        [compileFlag, bitcode, unusedArgumentFlag] := by
  rw [dropsPair_iff (by decide)] at hkept
  rw [buildBitcode, hkept, adding_empty (show unusedArgumentFlag ≠ "" by decide),
    adding_of_ne (show compileFlag ≠ "" by decide) hbitcode,
    adding_of_ne (show languageFlag ≠ "" by decide) (by decide), List.append_assoc]
  rfl

/-- What the stages add to the arguments, the bitcode apart. -/
def ownElements : List String :=
  ["-emit-llvm", outputFlag, languageFlag, "ir", compileFlag, unusedArgumentFlag]

/-- All that is kept of the arguments comes first; the bitcode is among what is added. -/
theorem buildBitcode_eq_body_append {args kept body : Arguments} {bitcode : String}
    (hbitcode : bitcode ≠ "") (hkept : DropsPair languageFlag args kept)
    (hbody : DropsPair compileFlag kept body) :
    ∃ added, buildBitcode args bitcode = body ++ added ∧ bitcode ∈ added ∧
      ∀ a ∈ added, a = bitcode ∨ a ∈ ownElements := by
  obtain ⟨hplain, hlast⟩ := without_append (by decide) hbody [languageFlag, "ir"] (by decide)
  rw [buildBitcode_eq hbitcode hkept]
  by_cases hends : kept.EndsInFirst compileFlag
  · refine ⟨["ir", compileFlag, bitcode, unusedArgumentFlag], ?_, by simp, ?_⟩
    · rw [hlast hends, List.append_assoc]
      rfl
    · simp [ownElements]
  · refine ⟨[languageFlag, "ir", compileFlag, bitcode, unusedArgumentFlag], ?_, by simp, ?_⟩
    · rw [hplain hends, List.append_assoc]
      rfl
    · simp [ownElements]

/-- The object file is built from the bitcode as bitcode, whatever the arguments, unless the compile flag
is the last of them: then the language flag is lost and its value left on its own. -/
theorem buildBitcode_eq_append_iff {args kept body : Arguments} {bitcode : String}
    (habsolute : Path.isAbsolute bitcode = true) (hkept : DropsPair languageFlag args kept)
    (hbody : DropsPair compileFlag kept body) :
    (buildBitcode args bitcode =
        body ++ [languageFlag, "ir", compileFlag, bitcode, unusedArgumentFlag] ↔
      ¬ kept.EndsInFirst compileFlag) ∧
    (kept.EndsInFirst compileFlag →
      buildBitcode args bitcode = body ++ ["ir", compileFlag, bitcode, unusedArgumentFlag]) := by
  obtain ⟨hplain, hlast⟩ := without_append (by decide) hbody [languageFlag, "ir"] (by decide)
  rw [buildBitcode_eq (ne_empty_of_isAbsolute habsolute) hkept]
  by_cases hends : kept.EndsInFirst compileFlag
  · rw [hlast hends]
    simp [hends]
  · rw [hplain hends]
    simp [hends]

/-- A language and a source given in front of the object file make way for the bitcode. -/
theorem buildBitcode_of_language_given :
    Path.isAbsolute "/w/hello.c.opt.bc" = true ∧
      DropsPair languageFlag ["-x", "c", "-c", "hello.c", "-o", "hello.o"]
        ["-c", "hello.c", "-o", "hello.o"] ∧
      DropsPair compileFlag ["-c", "hello.c", "-o", "hello.o"] ["-o", "hello.o"] ∧
      buildBitcode ["-x", "c", "-c", "hello.c", "-o", "hello.o"] "/w/hello.c.opt.bc" =
        ["-o", "hello.o"] ++
          [languageFlag, "ir", compileFlag, "/w/hello.c.opt.bc", unusedArgumentFlag] := by
  have habsolute : Path.isAbsolute "/w/hello.c.opt.bc" = true := by decide +kernel
  have hkept : DropsPair languageFlag ["-x", "c", "-c", "hello.c", "-o", "hello.o"]
      ["-c", "hello.c", "-o", "hello.o"] :=
    @DropsPair.pair languageFlag [] ["-c", "hello.c", "-o", "hello.o"] "c" (by decide)
  have hbody : DropsPair compileFlag ["-c", "hello.c", "-o", "hello.o"] ["-o", "hello.o"] :=
    @DropsPair.pair compileFlag [] ["-o", "hello.o"] "hello.c" (by decide)
  exact ⟨habsolute, hkept, hbody,
    (buildBitcode_eq_append_iff habsolute hkept hbody).1.mpr (by decide)⟩

/-- With the compile flag in last place the language flag is gone. -/
theorem languageFlag_lost_of_compileFlag_last :
    DropsPair languageFlag ["-o", "hello.o", "weird.input", "-c"]
        ["-o", "hello.o", "weird.input", "-c"] ∧
      DropsPair compileFlag ["-o", "hello.o", "weird.input", "-c"]
        ["-o", "hello.o", "weird.input"] ∧
      buildBitcode ["-o", "hello.o", "weird.input", "-c"] "/w/translation-unit.opt.bc" =
        ["-o", "hello.o", "weird.input"] ++
          ["ir", compileFlag, "/w/translation-unit.opt.bc", unusedArgumentFlag] ∧
      buildBitcode ["-o", "hello.o", "weird.input", "-c"] "/w/translation-unit.opt.bc" ≠
        ["-o", "hello.o", "weird.input"] ++
          [languageFlag, "ir", compileFlag, "/w/translation-unit.opt.bc", unusedArgumentFlag] := by
  refine ⟨.absent (by decide), @DropsPair.last compileFlag ["-o", "hello.o", "weird.input"] (by decide), ?_, ?_⟩
  · decide
  · decide

end BitcodeWrapper.StageCommand
