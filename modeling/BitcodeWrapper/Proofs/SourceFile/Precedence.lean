import BitcodeWrapper.Compiler
import BitcodeWrapper.Proofs.SourceFile.Found
import BitcodeWrapper.Proofs.SourceFile.Language

/-! Which element of a command line names the translation unit. The value of the compile flag goes before
all others, whatever it is; without one, it is the first element that ends as a source file does. -/
namespace BitcodeWrapper

/-- The first occurrence of the flag, if there is one, has nothing or the empty element after it. -/
inductive Arguments.LacksValue (flag : String) : Arguments → Prop
  | absent {args : Arguments} (notIn : flag ∉ args) : LacksValue flag args
  | last {before : Arguments} (first : flag ∉ before) : LacksValue flag (before ++ [flag])
  | empty {before after : Arguments} (first : flag ∉ before) : LacksValue flag (before ++ flag :: "" :: after)

namespace SourceFile
open Arguments BitcodeWrapper.Language

/-- Where the translation unit of a command line comes from. -/
inductive Names : Arguments → SourceFile → Prop
  | afterFlag {before after : Arguments} {path : String} (first : compileFlag ∉ before)
      (nonempty : path ≠ "") :
      Names (before ++ compileFlag :: path :: after) ⟨Path.base path, ofFile path⟩
  | byExtension {front back : Arguments} {path : String} {language : Language}
      (valueless : LacksValue compileFlag (front ++ path :: back))
      (unlisted : ∀ a ∈ front, ofFile a = .unknown) (ends : EndsIn path language.tails) :
      Names (front ++ path :: back) ⟨Path.base path, language⟩
  | nowhere {args : Arguments} (valueless : LacksValue compileFlag args)
      (unlisted : ∀ a ∈ args, ofFile a = .unknown) : Names args ⟨"", .unknown⟩

variable {args : Arguments} {found : SourceFile} {path : String}

theorem valueAfter_of_lacksValue {flag : String} (h : LacksValue flag args) : valueAfter flag args = "" := by
  cases h with
  | absent notIn => exact valueAfter_of_notMem notIn
  | last first => exact valueAfter_concat first
  | empty first => exact valueAfter_append_pair first "" _

/-- A flag lacks a value or is followed by it. -/
theorem lacksValue_or (flag : String) (args : Arguments) :
    LacksValue flag args ∨
      ∃ before value after, args = before ++ flag :: value :: after ∧ flag ∉ before ∧ value ≠ "" := by
  by_cases hmem : flag ∈ args
  · obtain ⟨before, after, rfl, first⟩ := List.eq_append_cons_of_mem hmem
    rcases after with _ | ⟨value, after⟩
    · exact .inl (.last first)
    · by_cases hvalue : value = ""
      · subst hvalue
        exact .inl (.empty first)
      · exact .inr ⟨before, value, after, rfl, first, hvalue⟩
  · exact .inl (.absent hmem)

theorem named_eq (path : String) : named path = ⟨Path.base path, ofFile path⟩ := by
  rw [named, ofFile_base]

theorem ofArguments_after_compileFlag {before after : Arguments} (first : compileFlag ∉ before)
    (nonempty : path ≠ "") :
    ofArguments (before ++ compileFlag :: path :: after) = ⟨Path.base path, ofFile path⟩ := by
  have hvalue : valueOf (before ++ compileFlag :: path :: after) compileFlag = path := by
    rw [valueOf, if_neg (by decide), valueAfter_append_pair first]
  rw [ofArguments_of_valueOf_ne (hvalue.symm ▸ nonempty), hvalue, named_eq]

theorem ofArguments_of_lacksValue (h : LacksValue compileFlag args) :
    ofArguments args = ((args.map named).find? (·.language != .unknown)).getD none := by
  have hvalue : args.valueOf compileFlag = "" := by
    rw [valueOf, if_neg (by decide), valueAfter_of_lacksValue h]
  rw [ofArguments, hvalue]
  rfl

theorem Names.eq_ofArguments (h : Names args found) : ofArguments args = found := by
  cases h with
  | afterFlag first nonempty => exact ofArguments_after_compileFlag first nonempty
  | @byExtension front back path language valueless unlisted ends =>
    have hknown : ofFile path ≠ .unknown := ofFile_ne_unknown_iff.mpr ⟨language, ends⟩
    have hfind : ((front ++ path :: back).map named).find? (·.language != .unknown) =
        some (named path) := by
      refine List.find?_eq_some_iff_append.mpr ⟨by simpa [named_eq] using hknown, front.map named,
        back.map named, by simp, fun a ha => ?_⟩
      obtain ⟨b, hb, rfl⟩ := List.mem_map.mp ha
      simp [named_eq, unlisted b hb]
    rw [ofArguments_of_lacksValue valueless, hfind, Option.getD_some, named_eq, ends.ofFile_eq]
  | nowhere valueless unlisted =>
    have hfind : (args.map named).find? (·.language != .unknown) = Option.none := by
      refine List.find?_eq_none.mpr fun a ha => ?_
      obtain ⟨b, hb, rfl⟩ := List.mem_map.mp ha
      simp [named_eq, unlisted b hb]
    rw [ofArguments_of_lacksValue valueless, hfind]
    rfl

/-- On every command line one of the rules applies. -/
theorem exists_names (args : Arguments) : ∃ found, Names args found := by
  rcases lacksValue_or compileFlag args with valueless | ⟨before, path, after, rfl, first, nonempty⟩
  · cases hfind : args.find? (ofFile · != .unknown) with
    | none =>
      refine ⟨_, .nowhere valueless fun a ha => ?_⟩
      simpa using List.find?_eq_none.mp hfind a ha
    | some path =>
      obtain ⟨hknown, front, back, rfl, hfront⟩ := List.find?_eq_some_iff_append.mp hfind
      obtain ⟨language, ends⟩ := ofFile_ne_unknown_iff.mp (bne_iff_ne.mp hknown)
      refine ⟨_, .byExtension valueless (fun a ha => ?_) ends⟩
      simpa using hfront a ha
  · exact ⟨_, .afterFlag first nonempty⟩

theorem ofArguments_eq_iff_names : ofArguments args = found ↔ Names args found := by
  constructor
  · rintro rfl
    obtain ⟨found, hnames⟩ := exists_names args
    rwa [hnames.eq_ofArguments]
  · exact Names.eq_ofArguments

/-- The name is that of a file and tells the language. -/
theorem name_ofArguments (args : Arguments) :
    Path.slash ∉ (ofArguments args).name.toList ∧
      (ofArguments args).language = ofFile (ofArguments args).name := by
  rcases ofArguments_eq_named args with ⟨path, hpath⟩ | hnone
  · simp only [hpath, named_eq, ofFile_base, and_true]
    exact Path.slash_notMem_base path
  · rw [hnone]
    decide +kernel

/-- The value of the compile flag settles the translation unit and the driver, whatever else is on the
command line. -/
theorem ofArguments_settled (args : Arguments) :
    (Path.slash ∉ (ofArguments args).name.toList ∧
      (ofArguments args).language = ofFile (ofArguments args).name) ∧
    (∀ found, ofArguments args = found ↔ Names args found) ∧
    ∀ before path after, args = before ++ compileFlag :: path :: after → compileFlag ∉ before → path ≠ "" →
      ∀ before' after', compileFlag ∉ before' →
        ofArguments (before' ++ compileFlag :: path :: after') = ofArguments args ∧
        ∀ invokedAs,
          Compiler.driverName invokedAs (ofArguments (before' ++ compileFlag :: path :: after')).language =
            Compiler.driverName invokedAs (ofArguments args).language := by
  refine ⟨name_ofArguments args, fun found => ofArguments_eq_iff_names, ?_⟩
  rintro before path after rfl first nonempty before' after' first'
  have hsame : ofArguments (before' ++ compileFlag :: path :: after') =
      ofArguments (before ++ compileFlag :: path :: after) := by
    rw [ofArguments_after_compileFlag first nonempty, ofArguments_after_compileFlag first' nonempty]
  exact ⟨hsame, fun invokedAs => by rw [hsame]⟩

end SourceFile

end BitcodeWrapper
