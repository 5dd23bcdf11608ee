import BitcodeWrapper.Proofs.Path.Name
import BitcodeWrapper.SourceFile

/-! The language of a file is told by the end of its name: by one of the extensions that are listed for
the language, after something that is not all dots. -/
namespace BitcodeWrapper.Language
open BitcodeWrapper.Path

variable {path : String} {language : Language}

/-- The extensions of a language, without their dot. -/
def tails : Language → List String
  | unknown => []
  | c => ["c"]
  | cpp => ["cpp", "cc", "cxx", "c++"]
  | objc => ["m"]

/-- The path ends in a name that has a body before one of the extensions. -/
def EndsIn (path : String) (tails : List String) : Prop :=
  ∃ stem, ∃ tail ∈ tails, HasBody stem ∧ HasName path (stem ++ "." ++ tail)

/-- A name that no language is told by. -/
inductive IsUnlisted (path : String) : Prop
  | hidden {dots tail : String} (ends : HasName path (dots ++ "." ++ tail)) (bare : ¬ HasBody dots)
      (last : '.' ∉ tail.toList)
  | undotted {name : String} (ends : HasName path name) (none : '.' ∉ name.toList)
  | other {stem tail : String} (ends : HasName path (stem ++ "." ++ tail)) (last : '.' ∉ tail.toList)
      (unlisted : ∀ language : Language, tail ∉ language.tails)

theorem dot_notMem_of_mem_tails {tail : String} (h : tail ∈ language.tails) : '.' ∉ tail.toList := by
  revert tail
  cases language <;> decide +kernel

/-- No extension is listed for two languages. -/
theorem ofExtension_eq_iff (hlanguage : language ≠ unknown) (extension : String) :
    ofExtension extension = language ↔ ∃ tail ∈ language.tails, extension = "." ++ tail := by
  constructor
  · rintro rfl
    revert hlanguage
    rw [ofExtension.eq_def]
    split <;> intro hlanguage
    case h_7 => exact (hlanguage rfl).elim
    all_goals decide +kernel
  · rintro ⟨tail, htail, rfl⟩
    revert tail
    cases language <;> decide +kernel

theorem EndsIn.ne_unknown (h : EndsIn path language.tails) : language ≠ unknown := by
  rintro rfl
  obtain ⟨_, _, hnone, _⟩ := h
  exact List.not_mem_nil hnone

theorem ofFile_eq_iff (hlanguage : language ≠ unknown) :
    ofFile path = language ↔ EndsIn path language.tails := by
  rw [ofFile, ofExtension_eq_iff hlanguage]
  constructor
  · rintro ⟨tail, htail, hextension⟩
    obtain ⟨stem, hbody, hname⟩ :=
      (extension_eq_iff (dot_notMem_of_mem_tails htail)).mp hextension
    exact ⟨stem, tail, htail, hbody, hname⟩
  · rintro ⟨stem, tail, htail, hbody, hname⟩
    exact ⟨tail, htail, (extension_eq_iff (dot_notMem_of_mem_tails htail)).mpr ⟨stem, hbody, hname⟩⟩

theorem EndsIn.ofFile_eq (h : EndsIn path language.tails) : ofFile path = language :=
  (ofFile_eq_iff h.ne_unknown).mpr h

theorem ofFile_ne_unknown_iff :
    ofFile path ≠ unknown ↔ ∃ language : Language, EndsIn path language.tails := by
  constructor
  · exact fun h => ⟨_, (ofFile_eq_iff h).mp rfl⟩
  · rintro ⟨language, hends⟩
    rw [hends.ofFile_eq]
    exact hends.ne_unknown

theorem IsUnlisted.extension_cases (h : IsUnlisted path) :
    extension path = "" ∨
      ∃ tail, extension path = "." ++ tail ∧ ∀ language : Language, tail ∉ language.tails := by
  cases h with
  | hidden ends bare last => exact .inl (ends.parts_eq (.hidden bare last)).2
  | undotted ends none => exact .inl (ends.parts_eq (.undotted none)).2
  | @other stem tail ends last unlisted =>
    by_cases hbody : HasBody stem
    · exact .inr ⟨tail, (ends.parts_eq (.atLastDot hbody last)).2, unlisted⟩
    · exact .inl (ends.parts_eq (.hidden hbody last)).2

theorem ofFile_eq_unknown_iff : ofFile path = unknown ↔ IsUnlisted path := by
  constructor
  · intro hunknown
    obtain ⟨stem, extension, hcut⟩ := exists_isCut (base path)
    generalize hname : base path = name at hcut
    have hends := hasName_iff.mpr hname
    cases hcut with
    | @atLastDot _ tail body last =>
      refine .other hends last fun language htail => ?_
      exact ofFile_ne_unknown_iff.mpr ⟨language, stem, tail, htail, body, hends⟩ hunknown
    | hidden bare last => exact .hidden hends bare last
    | undotted none => exact .undotted hends none
  · intro hunlisted
    by_contra hknown
    obtain ⟨tail, htail, hextension⟩ := (ofExtension_eq_iff hknown _).mp rfl
    rcases hunlisted.extension_cases with hnone | ⟨other, hother, hnot⟩
    · exact dot_append_ne_empty tail (hextension.symm.trans hnone)
    · have hsame : tail = other := String.append_right_inj "." |>.mp (hextension.symm.trans hother)
      exact hnot _ (hsame ▸ htail)

theorem ofFile_congr {path' : String} (h : base path = base path') : ofFile path = ofFile path' := by
  have hchars := congrArg String.toList h
  rw [base, base, String.toList_ofList, String.toList_ofList] at hchars
  rw [ofFile, ofFile, extension, extension, hchars]

theorem ofFile_base (path : String) : ofFile (base path) = ofFile path :=
  ofFile_congr (base_of_notMem (slash_notMem_base path))

/-- The language depends on the end of the name alone, which is compared letter by letter, and the stem is
the name up to its last dot. -/
theorem ofFile_told_by_name (path : String) :
    ((ofFile path = c ↔ EndsIn path ["c"]) ∧
      (ofFile path = cpp ↔ EndsIn path ["cpp", "cc", "cxx", "c++"]) ∧
      (ofFile path = objc ↔ EndsIn path ["m"]) ∧
      (ofFile path = unknown ↔ IsUnlisted path)) ∧
    (ofFile path = ofFile (base path) ∧ HasName path (base path) ∧
      ∀ front, ofFile (front ++ "/" ++ path) = ofFile path) ∧
    ∀ stem' extension',
      IsCut (base path) stem' extension' ↔ stem path = stem' ∧ extension path = extension' :=
  ⟨⟨ofFile_eq_iff nofun, ofFile_eq_iff nofun, ofFile_eq_iff nofun, ofFile_eq_unknown_iff⟩,
    ⟨(ofFile_base path).symm, hasName_base path, fun front => ofFile_congr (base_append_slash front path)⟩,
    fun _ _ => isCut_base_iff⟩

example : ofFile "a.cc/.c" = unknown ∧ ofFile "a.C" = unknown ∧ ofFile "..a.m.c++" = cpp := by
  decide +kernel

end BitcodeWrapper.Language
