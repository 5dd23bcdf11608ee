import BitcodeWrapper.Proofs.SourceFile.Found
import BitcodeWrapper.Proofs.StageCommand.Build

/-! The source file on the command line of stage three. It is found wherever it stands, but only an element
right behind one of two flags is taken out of the arguments. -/
namespace BitcodeWrapper.StageCommand
open Arguments
open SourceFile (compileFlag IsNamedBy)

variable {args kept body : Arguments} {source bitcode : String}

/-- The source goes as the value of the language flag, or as that of the compile flag if that flag does not
itself go as the value of the other. -/
def TakesSource (args : Arguments) (source : String) : Prop :=
  args.valueOf languageFlag = source ∨
    args.valueOf compileFlag = source ∧ args.valueOf languageFlag ≠ compileFlag

instance (args : Arguments) (source : String) : Decidable (TakesSource args source) :=
  inferInstanceAs (Decidable (_ ∨ _ ∧ _))

theorem ne_of_mem_ownElements (hsource : IsNamedBy args source) :
    ∀ a ∈ ownElements, source ≠ a := by
  have hunknown : ∀ a ∈ ownElements, Language.ofFile (Path.base a) = .unknown := by decide +kernel
  exact fun a ha => hsource.ne_of_unknown (hunknown a ha)

/-- The two removals one after the other. The first leaves the value of the compile flag alone, because no
source is called like the language flag. -/
theorem source_mem_body_iff (hsource : IsNamedBy args source) (honce : args.count compileFlag = 1)
    (hkept : DropsPair languageFlag args kept) (hbody : DropsPair compileFlag kept body) :
    source ∈ body ↔ ¬ TakesSource args source := by
  have hlanguage : source ≠ languageFlag := ne_of_mem_ownElements hsource _ (by decide)
  have hcompile : source ≠ compileFlag := ne_of_mem_ownElements hsource _ (by decide)
  have hempty : source ≠ "" := hsource.ne_of_unknown (by decide +kernel)
  have hnext : args.valueOf compileFlag ≠ languageFlag := fun h =>
    hlanguage ((hsource.eq_valueOf (h ▸ by decide)).symm.trans h)
  have hvalue : valueAfter compileFlag kept =
      if args.valueOf languageFlag = compileFlag then "" else args.valueOf compileFlag :=
    hkept.valueAfter_eq (by decide) (by decide) honce hnext
  have hfirst : source ∈ kept ↔ args.valueOf languageFlag ≠ source :=
    hkept.mem_iff hlanguage hempty hsource.count
  by_cases htaken : args.valueOf languageFlag = source
  · exact iff_of_false (fun h => hfirst.mp (hbody.subset h) htaken) (not_not_intro (.inl htaken))
  · have hmem : source ∈ kept := hfirst.mpr htaken
    have hcount : kept.count source = 1 :=
      Nat.le_antisymm (hsource.count ▸ hkept.sublist.count_le source) (List.count_pos_iff.mpr hmem)
    rw [hbody.mem_iff hcompile hempty hcount, hvalue, TakesSource, or_iff_right htaken]
    by_cases hflag : args.valueOf languageFlag = compileFlag
    · rw [if_pos hflag]
      exact iff_of_true (Ne.symm hempty) fun h => h.2 hflag
    · rw [if_neg hflag, and_iff_left hflag]

/-- The source is left for stage three exactly if neither flag takes it, or if it is the bitcode itself. -/
theorem source_mem_buildBitcode_iff (habsolute : Path.isAbsolute bitcode = true)
    (honce : args.count compileFlag = 1) (hsource : IsNamedBy args source) :
    source ∈ buildBitcode args bitcode ↔ source = bitcode ∨ ¬ TakesSource args source := by
  have hkept : DropsPair languageFlag args (args.without languageFlag true) :=
    (dropsPair_iff (by decide)).mpr rfl
  have hbody : DropsPair compileFlag (args.without languageFlag true)
      ((args.without languageFlag true).without compileFlag true) :=
    (dropsPair_iff (by decide)).mpr rfl
  obtain ⟨added, hline, hbitcode, hadded⟩ :=
    buildBitcode_eq_body_append (ne_empty_of_isAbsolute habsolute) hkept hbody
  have hmem : source ∈ added ↔ source = bitcode := by
    refine ⟨fun h => ?_, fun h => h ▸ hbitcode⟩
    exact (hadded source h).resolve_right fun hown => ne_of_mem_ownElements hsource _ hown rfl
  rw [hline, List.mem_append, hmem, source_mem_body_iff hsource honce hkept hbody, or_comm]

/-- The usual order, with the language given. -/
theorem source_taken_after_compileFlag :
    Path.isAbsolute "/w/hello.c.opt.bc" = true ∧
      List.count compileFlag ["-x", "c", "-c", "src/hello.c", "-o", "hello.o"] = 1 ∧
      IsNamedBy ["-x", "c", "-c", "src/hello.c", "-o", "hello.o"] "src/hello.c" ∧
      "src/hello.c" ∉
        buildBitcode ["-x", "c", "-c", "src/hello.c", "-o", "hello.o"] "/w/hello.c.opt.bc" := by
  have habsolute : Path.isAbsolute "/w/hello.c.opt.bc" = true := by decide +kernel
  have honce : List.count compileFlag ["-x", "c", "-c", "src/hello.c", "-o", "hello.o"] = 1 := by
    decide
  have hsource : IsNamedBy ["-x", "c", "-c", "src/hello.c", "-o", "hello.o"] "src/hello.c" :=
    ⟨by decide +kernel, by decide +kernel⟩
  refine ⟨habsolute, honce, hsource, fun h => ?_⟩
  exact absurd ((source_mem_buildBitcode_iff habsolute honce hsource).mp h) (by decide)

/-- With the compile flag in last place the source is found all the same, and left beside the bitcode. -/
theorem source_left_before_compileFlag :
    Path.isAbsolute "/w/hello.c.opt.bc" = true ∧
      List.count compileFlag ["hello.c", "-o", "hello.o", "-c"] = 1 ∧
      IsNamedBy ["hello.c", "-o", "hello.o", "-c"] "hello.c" ∧
      buildBitcode ["hello.c", "-o", "hello.o", "-c"] "/w/hello.c.opt.bc" =
        ["hello.c", "-o", "hello.o", "ir", compileFlag, "/w/hello.c.opt.bc", unusedArgumentFlag] ∧
      "hello.c" ∈ buildBitcode ["hello.c", "-o", "hello.o", "-c"] "/w/hello.c.opt.bc" :=
  ⟨by decide +kernel, by decide, ⟨by decide +kernel, by decide +kernel⟩, by decide, by decide⟩

end BitcodeWrapper.StageCommand
