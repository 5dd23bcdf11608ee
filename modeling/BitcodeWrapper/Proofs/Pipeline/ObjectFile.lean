import BitcodeWrapper.Proofs.ArgumentVector.Value
import BitcodeWrapper.Proofs.Pipeline.ExitCode
import BitcodeWrapper.Proofs.StageCommand.Build

/-! The object file that the arguments name, and the one that stage three is told to build. They are the
same unless the output flag itself is taken for the value of the language flag or the compile flag. -/
namespace BitcodeWrapper.Pipeline
open BitcodeWrapper.Action Arguments Job
open SourceFile (compileFlag)
open StageCommand (languageFlag outputFlag unusedArgumentFlag)

/-- A text that cannot be taken for a flag. -/
structure NamesObject (object : String) : Prop where
  nonempty : object ≠ ""
  noFlag : object.toList.head? ≠ some '-'

instance (object : String) : Decidable (NamesObject object) :=
  decidable_of_iff (object ≠ "" ∧ object.toList.head? ≠ some '-')
    ⟨fun ⟨nonempty, noFlag⟩ => ⟨nonempty, noFlag⟩, fun h => ⟨h.nonempty, h.noFlag⟩⟩

/-- What comes next stands where the value of the language flag is looked for or, with that flag out of
the way, the value of the compile flag. -/
def TakesNext (before : Arguments) : Prop :=
  before.EndsInFirst languageFlag ∨ (before.without languageFlag true).EndsInFirst compileFlag

instance (before : Arguments) : Decidable (TakesNext before) :=
  inferInstanceAs (Decidable (_ ∨ _))

/-- Stage three goes on to its command, and unless that fails the result is the object file. -/
def BuildsObject (driver : String) (args : Arguments) (bitcode object : String) : Prop :=
  ∀ (runner : Runner) (isDryRun : Bool) (h : Host), ∃ answer,
    calls ((buildBitcode driver bitcode args isDryRun).events runner h) =
        (if isDryRun then []
          else [⟨driver :: StageCommand.buildBitcode args bitcode, none, answer⟩]) ∧
      (outcome ((buildBitcode driver bitcode args isDryRun).run runner) h).1 =
        (stageResult isDryRun "building bitcode"
          (driver :: StageCommand.buildBitcode args bitcode) answer).map fun _ => object

/-- Stage three gives up before its command, for want of an object file. -/
def MissesObject (driver : String) (args : Arguments) (bitcode : String) : Prop :=
  ∀ (runner : Runner) (isDryRun : Bool) (h : Host),
    calls ((buildBitcode driver bitcode args isDryRun).events runner h) = [] ∧
      (outcome ((buildBitcode driver bitcode args isDryRun).run runner) h).1 =
        .error (.failure .missingOutput)

variable {before after args : Arguments} {driver bitcode object : String}

theorem NamesObject.ne_flag (h : NamesObject object) {flag : String}
    (hflag : flag.toList.head? = some '-') : object ≠ flag := by
  rintro rfl
  exact h.noFlag hflag

/-- The parameters of stage three decide whether it goes on to its command. -/
theorem buildsObject_of_ne_empty (hobject : objectFile args bitcode ≠ "") :
    BuildsObject driver args bitcode (objectFile args bitcode) := by
  intro runner isDryRun h
  have hshows := (follows_events runner (buildBitcode driver bitcode args isDryRun) h).shows
  obtain ⟨hmissing, -, -⟩ | ⟨-, answer, hevents, hresult⟩ := shows_buildBitcode_iff.mp hshows
  · exact (hobject hmissing).elim
  · refine ⟨answer, ?_, hresult⟩
    rw [← calls_visible, hevents]
    cases isDryRun <;> rfl

theorem missesObject_of_eq_empty (hobject : objectFile args bitcode = "") :
    MissesObject driver args bitcode := by
  intro runner isDryRun h
  have hshows := (follows_events runner (buildBitcode driver bitcode args isDryRun) h).shows
  obtain ⟨-, hevents, hresult⟩ | ⟨hnamed, -⟩ := shows_buildBitcode_iff.mp hshows
  · exact ⟨by rw [← calls_visible, hevents]; rfl, hresult⟩
  · exact (hnamed hobject).elim

/-- The object file of the rebuilt arguments, with both removals written out. -/
theorem objectFile_eq_valueAfter (habsolute : Path.isAbsolute bitcode = true) (args : Arguments) :
    objectFile args bitcode =
      valueAfter outputFlag
        (withoutFirst compileFlag true (withoutFirst languageFlag true args ++ [languageFlag, "ir"]) ++
          [compileFlag, bitcode, unusedArgumentFlag]) := by
  have hdrops : DropsPair languageFlag args (args.without languageFlag true) :=
    (dropsPair_iff (by decide)).mpr rfl
  have hbuild := StageCommand.buildBitcode_eq (StageCommand.ne_empty_of_isAbsolute habsolute) hdrops
  rw [objectFile, hbuild]
  rfl

/-- What stage three adds names no output. -/
theorem outputFlag_of_mem_added (habsolute : Path.isAbsolute bitcode = true) {args : Arguments}
    (h : outputFlag ∈ args ++ [compileFlag, bitcode, unusedArgumentFlag]) : outputFlag ∈ args := by
  refine (List.mem_append.mp h).resolve_right fun hadded => ?_
  rcases List.mem_cons.mp hadded with heq | hadded
  · exact absurd heq (by decide)
  · rcases List.mem_cons.mp hadded with rfl | hlast
    · exact absurd habsolute (by decide)
    · exact absurd hlast (by decide)

/-- The object file does not depend on the bitcode that it is built from. -/
theorem objectFile_eq_of_isAbsolute {bitcode' : String} (h : Path.isAbsolute bitcode = true)
    (h' : Path.isAbsolute bitcode' = true) (args : Arguments) :
    objectFile args bitcode = objectFile args bitcode' := by
  have hadded : ∀ {path}, Path.isAbsolute path = true →
      outputFlag ∉ [compileFlag, path, unusedArgumentFlag] := by
    intro path habsolute hmem
    have hnil : outputFlag ∈ ([] : Arguments) := outputFlag_of_mem_added habsolute hmem
    exact List.not_mem_nil hnil
  rw [objectFile_eq_valueAfter h, objectFile_eq_valueAfter h',
    valueAfter_append_cons_of_notMem (hadded h), valueAfter_append_cons_of_notMem (hadded h')]

/-- An output flag that nothing takes keeps its value. -/
theorem objectFile_eq_of_not_takesNext (habsolute : Path.isAbsolute bitcode = true)
    (first : outputFlag ∉ before) (hobject : NamesObject object) (hkept : ¬ TakesNext before) :
    objectFile (before ++ outputFlag :: object :: after) bitcode = object := by
  obtain ⟨hlanguage, hcompile⟩ := not_or.mp hkept
  rw [without, if_neg (by decide)] at hcompile
  have hfirst : outputFlag ∉
      withoutFirst compileFlag true (withoutFirst languageFlag true before) := fun h =>
    first (withoutFirst_subset _ _ _ (withoutFirst_subset _ _ _ h))
  rw [objectFile_eq_valueAfter habsolute,
    withoutFirst_append_pair (by decide) (hobject.ne_flag (by decide)) hlanguage,
    List.append_assoc, List.cons_append, List.cons_append,
    withoutFirst_append_pair (by decide) (hobject.ne_flag (by decide)) hcompile,
    List.append_assoc, List.cons_append, List.cons_append]
  exact valueAfter_append_pair hfirst object _

/-- A text in front of what is kept is passed over, whether or not the compile flag takes it. -/
theorem valueAfter_withoutFirst_append_cons (first : outputFlag ∉ before)
    (hobject : NamesObject object) (after tail : Arguments) :
    valueAfter outputFlag (withoutFirst compileFlag true (before ++ object :: after) ++ tail) =
      valueAfter outputFlag
        ((if compileFlag ∈ before then after else withoutFirst compileFlag true after) ++ tail) := by
  have hpassed : ∀ front rest : Arguments, outputFlag ∉ front →
      valueAfter outputFlag (front ++ object :: rest) = valueAfter outputFlag rest := by
    intro front rest hfront
    rw [valueAfter_append_of_notMem hfront, valueAfter, if_neg (hobject.ne_flag (by decide))]
  by_cases hmem : compileFlag ∈ before
  · rw [if_pos hmem]
    by_cases hends : before.EndsInFirst compileFlag
    · obtain ⟨front, hfront, rfl⟩ := hends
      rw [List.append_assoc, List.singleton_append, withoutFirst_append_cons hfront, List.drop_one,
        List.tail_cons, List.append_assoc, valueAfter_append_of_notMem]
      exact fun h => first (List.mem_append_left _ h)
    · rw [withoutFirst_append_of_mem hmem hends, List.append_assoc, List.cons_append]
      exact hpassed _ _ fun h => first (withoutFirst_subset _ _ _ h)
  · rw [if_neg hmem, withoutFirst_append_of_notMem hmem, withoutFirst,
      if_neg (hobject.ne_flag (by decide)), List.append_assoc, List.cons_append]
    exact hpassed _ _ first

theorem outputFlag_of_mem_language {args : Arguments}
    (h : outputFlag ∈ args ++ [languageFlag, "ir"]) : outputFlag ∈ args :=
  (List.mem_append.mp h).resolve_right (by decide)

/-- The value of an output flag that is taken itself is of no consequence: the object file is looked for
in what comes after it. -/
theorem objectFile_eq_of_takesNext (habsolute : Path.isAbsolute bitcode = true)
    (first : outputFlag ∉ before) (htaken : TakesNext before) (after : Arguments) :
    ∃ left : Arguments, (outputFlag ∈ left → outputFlag ∈ after) ∧ ∀ object, NamesObject object →
      objectFile (before ++ outputFlag :: object :: after) bitcode = valueAfter outputFlag left := by
  simp only [objectFile_eq_valueAfter habsolute]
  by_cases hlanguage : before.EndsInFirst languageFlag
  · -- the language flag takes the output flag, and the compile flag meets the bare object file
    obtain ⟨front, hfront, rfl⟩ := hlanguage
    have hleft : outputFlag ∈ (if compileFlag ∈ front then after ++ [languageFlag, "ir"]
        else withoutFirst compileFlag true (after ++ [languageFlag, "ir"])) → outputFlag ∈ after := by
      split
      · exact outputFlag_of_mem_language
      · exact fun h => outputFlag_of_mem_language (withoutFirst_subset _ _ _ h)
    refine ⟨_, fun h => hleft (outputFlag_of_mem_added habsolute h), fun object hobject => ?_⟩
    rw [List.append_assoc, List.singleton_append, withoutFirst_append_cons hfront, List.drop_one,
      List.tail_cons, List.append_assoc, List.cons_append]
    exact valueAfter_withoutFirst_append_cons
      (fun h => first (List.mem_append_left _ h)) hobject _ _
  · -- the compile flag takes the output flag once the language flag is out of the way
    have hcompile := htaken.resolve_left hlanguage
    rw [without, if_neg (by decide)] at hcompile
    obtain ⟨front, hfront, hbefore⟩ := hcompile
    have hfirst : outputFlag ∉ front := fun h =>
      first (withoutFirst_subset languageFlag true _ (hbefore ▸ List.mem_append_left _ h))
    have hleft : outputFlag ∈ (if languageFlag ∈ before then after
        else withoutFirst languageFlag true after) ++ [languageFlag, "ir"] → outputFlag ∈ after := by
      split
      · exact outputFlag_of_mem_language
      · exact fun h => withoutFirst_subset _ _ _ (outputFlag_of_mem_language h)
    refine ⟨_, fun h => hleft (outputFlag_of_mem_added habsolute h), fun object hobject => ?_⟩
    rw [withoutFirst_append_pair (by decide) (hobject.ne_flag (by decide)) hlanguage, hbefore,
      List.append_assoc, List.append_assoc, List.singleton_append, List.cons_append,
      List.cons_append, withoutFirst_append_cons hfront, List.drop_one, List.tail_cons,
      List.append_assoc, valueAfter_append_of_notMem hfirst, List.cons_append, valueAfter,
      if_neg (hobject.ne_flag (by decide))]

/-- The first output flag decides the object file of the rebuild exactly if nothing in front of it takes it
for a value. One that is taken is missed, unless another follows. -/
theorem rebuild_keeps_object_iff (driver : String) (after : Arguments)
    (habsolute : Path.isAbsolute bitcode = true) (first : outputFlag ∉ before)
    (hobject : NamesObject object) :
    (objectFile (before ++ outputFlag :: object :: after) bitcode = object ↔
      ¬ TakesNext before ∨ ∀ other, NamesObject other →
        objectFile (before ++ outputFlag :: other :: after) bitcode = object) ∧
    (objectFile (before ++ outputFlag :: object :: after) bitcode = object →
      BuildsObject driver (before ++ outputFlag :: object :: after) bitcode object) ∧
    (TakesNext before → outputFlag ∉ after →
      MissesObject driver (before ++ outputFlag :: object :: after) bitcode) := by
  refine ⟨⟨fun hkept => ?_, fun h => ?_⟩, fun hkept => ?_, fun htaken honly => ?_⟩
  · by_cases htaken : TakesNext before
    · obtain ⟨left, -, hleft⟩ := objectFile_eq_of_takesNext habsolute first htaken after
      refine .inr fun other hother => ?_
      rw [hleft other hother, ← hleft object hobject, hkept]
    · exact .inl htaken
  · rcases h with hkept | hsame
    · exact objectFile_eq_of_not_takesNext habsolute first hobject hkept
    · exact hsame object hobject
  · have hbuilds : BuildsObject driver (before ++ outputFlag :: object :: after) bitcode
        (objectFile (before ++ outputFlag :: object :: after) bitcode) :=
      buildsObject_of_ne_empty (by rw [hkept]; exact hobject.nonempty)
    rwa [hkept] at hbuilds
  · obtain ⟨left, honlyAfter, hleft⟩ := objectFile_eq_of_takesNext habsolute first htaken after
    refine missesObject_of_eq_empty ?_
    rw [hleft object hobject, valueAfter_of_notMem fun h => honly (honlyAfter h)]

/-- The source right after the compile flag, or the language in front of it, leaves the object file alone. -/
theorem rebuild_keeps_object_after_source :
    Path.isAbsolute "/w/a.bc" = true ∧ outputFlag ∉ ["-x", "c", "-c", "x.c"] ∧ NamesObject "x.o" ∧
      objectFile (["-x", "c", "-c", "x.c"] ++ outputFlag :: "x.o" :: ["-g"]) "/w/a.bc" = "x.o" := by
  have habsolute : Path.isAbsolute "/w/a.bc" = true := by decide +kernel
  have first : outputFlag ∉ ["-x", "c", "-c", "x.c"] := by decide
  have hobject : NamesObject "x.o" := by decide
  exact ⟨habsolute, first, hobject,
    (rebuild_keeps_object_iff "clang" ["-g"] habsolute first hobject).1.mpr (.inl (by decide))⟩

/-- A compile flag right in front of the output flag takes it for its value. -/
theorem rebuild_misses_object_after_compileFlag :
    "-c" ∈ ["-c", "-o", "x.o", "x.c"] ∧ NamesObject "x.o" ∧ Path.isAbsolute "/w/a.bc" = true ∧
      valueOf ["-c", "-o", "x.o", "x.c"] outputFlag = "x.o" ∧
      objectFile ["-c", "-o", "x.o", "x.c"] "/w/a.bc" ≠ "x.o" ∧
      MissesObject "clang" ["-c", "-o", "x.o", "x.c"] "/w/a.bc" := by
  have hobject : objectFile ["-c", "-o", "x.o", "x.c"] "/w/a.bc" = "" := by decide
  refine ⟨by decide, by decide, by decide +kernel, by decide, ?_, missesObject_of_eq_empty hobject⟩
  rw [hobject]
  decide

end BitcodeWrapper.Pipeline
