import BitcodeWrapper.Config.Flags
import BitcodeWrapper.Proofs.ArgumentVector.Everywhere
import BitcodeWrapper.Proofs.ArgumentVector.Value
import BitcodeWrapper.Proofs.Config.Load

/-! The wrapper's own flags taken off a command line. Switches go wherever they stand. Of the flag that
names a file only the first occurrence goes, with the element after it. -/
namespace BitcodeWrapper.Config
open BitcodeWrapper.Action Arguments

variable {runner : Runner} {args rest : Arguments} {config : Option Config} {h h' : Host}

/-- What is recorded before the arguments are looked at. -/
def startText : String := "Parsing conjunct params..."

theorem withoutSwitches_eq_filter (args : Arguments) :
    withoutSwitches args = args.filter (· ∉ [dryRunFlag, retainFlag]) := by
  rw [withoutSwitches, withoutEvery_eq_filter (by decide), withoutEvery_eq_filter (by decide),
    List.filter_filter]
  refine List.filter_congr fun a _ => ?_
  simp [Bool.and_comm]

/-- Without a file nothing is loaded. -/
theorem extract_of_notMem (hfile : fileFlag ∉ withoutSwitches args) :
    extract runner args = (do
      debug startText
      debug ("Failed to find " ++ fileFlag)
      return (withoutSwitches args, none)) := by
  simp only [extract, has_eq_decide (show fileFlag ≠ "" by decide), hfile, decide_false,
    Bool.not_false, ↓reduceIte]
  rfl

/-- A file flag without a file is refused, and no file is looked at. -/
theorem extract_of_unnamed (hfile : fileFlag ∈ withoutSwitches args)
    (hvalue : valueAfter fileFlag (withoutSwitches args) = "") :
    extract runner args = (do
      debug startText
      refuse (.fileNotNamed fileFlag)) := by
  simp only [extract, has_eq_decide (show fileFlag ≠ "" by decide), hfile, decide_true,
    Bool.not_true, Bool.false_eq_true, ↓reduceIte, valueOf, if_neg (show fileFlag ≠ "" by decide),
    hvalue]
  rfl

/-- The file that is named is loaded, and its name goes with the flag. -/
theorem extract_of_named (hfile : fileFlag ∈ withoutSwitches args)
    (hvalue : valueAfter fileFlag (withoutSwitches args) ≠ "") :
    extract runner args = (do
      debug startText
      let c ← load runner (valueAfter fileFlag (withoutSwitches args)) (args.has dryRunFlag)
        (args.has retainFlag)
      return ((withoutSwitches args).without fileFlag true, some c)) := by
  simp only [extract, has_eq_decide (show fileFlag ≠ "" by decide), hfile, decide_true,
    Bool.not_true, Bool.false_eq_true, ↓reduceIte, valueOf, if_neg (show fileFlag ≠ "" by decide),
    hvalue]
  rfl

/-- What is left is what is left without the switches and the first file. -/
theorem dropsPair_of_extract (hextract : outcome (extract runner args) h = (.ok (rest, config), h')) :
    DropsPair fileFlag (args.filter (· ∉ [dryRunFlag, retainFlag])) rest := by
  rw [← withoutSwitches_eq_filter]
  by_cases hfile : fileFlag ∈ withoutSwitches args
  · by_cases hvalue : valueAfter fileFlag (withoutSwitches args) = ""
    · rw [extract_of_unnamed hfile hvalue] at hextract
      exact nomatch hextract
    · rw [extract_of_named hfile hvalue] at hextract
      simp only [outcome_bind_eq_ok_iff, outcome_pure] at hextract
      obtain ⟨_, _, -, c, _, -, hend⟩ := hextract
      cases hend
      exact (dropsPair_iff (by decide)).mpr rfl
  · rw [extract_of_notMem hfile] at hextract
    cases hextract
    exact .absent hfile

/-- The file flag does not stand again behind its file. -/
def NamesFileOnce (args : Arguments) : Prop :=
  ∀ before file after, args = before ++ fileFlag :: file :: after → fileFlag ∉ before →
    fileFlag ∉ after

theorem namesFileOnce_iff_of_dropsPair (h : DropsPair fileFlag args rest) :
    NamesFileOnce args ↔ fileFlag ∉ rest := by
  cases h with
  | absent notIn =>
    refine iff_of_true ?_ notIn
    rintro before file after rfl
    exact absurd (by simp) notIn
  | @last before first =>
    refine iff_of_true ?_ first
    intro before' file after hargs first'
    exact nomatch (append_cons_inj_of_first first first' hargs).2
  | @pair before after file first =>
    constructor
    · exact fun honce => List.not_mem_append first (honce before file after rfl first)
    · intro hrest before' file' after' hargs first'
      obtain ⟨rfl, htail⟩ := append_cons_inj_of_first first first' hargs
      obtain ⟨rfl, rfl⟩ := List.cons.inj htail
      exact fun hmem => hrest (List.mem_append_right _ hmem)

/-- The flags that are meant for the wrapper when it reads its configuration. -/
def ownFlags : List String := [dryRunFlag, retainFlag, fileFlag]

/-- The switches never reach the compiler. The flag that names a file reaches it exactly if it is given
a second time. -/
theorem extract_strips_ownFlags_iff
    (hextract : outcome (extract runner args) h = (.ok (rest, config), h')) :
    (dryRunFlag ∉ rest ∧ retainFlag ∉ rest) ∧
      ((∀ flag ∈ ownFlags, flag ∉ rest) ↔
        NamesFileOnce (args.filter (· ∉ [dryRunFlag, retainFlag]))) := by
  have hdrops := dropsPair_of_extract hextract
  have hswitch : ∀ flag ∈ [dryRunFlag, retainFlag], flag ∉ rest := by
    intro flag hflag hmem
    have hkept := (List.mem_filter.mp (hdrops.subset hmem)).2
    exact (of_decide_eq_true hkept) hflag
  have hboth : dryRunFlag ∉ rest ∧ retainFlag ∉ rest :=
    ⟨hswitch _ (by decide), hswitch _ (by decide)⟩
  refine ⟨hboth, ?_⟩
  rw [namesFileOnce_iff_of_dropsPair hdrops]
  simp [ownFlags, hboth]

/-- Where the file is `/c` and its text is minimal, it does not matter what else is on the command line. -/
theorem outcome_extract_minimalText {before after : Arguments} {isExecutable : Bool}
    (hminimal : h.files.get? ["c"] = some (.file (Text.Utf8.encode minimalText) isExecutable))
    (hquiet : h.logging.threshold = .warning) (first : fileFlag ∉ before)
    (hargs : args.filter (· ∉ [dryRunFlag, retainFlag]) = before ++ fileFlag :: "/c" :: after) :
    outcome (extract answering args) h =
      (.ok (before ++ after,
        some ⟨1, none, "/opt", [], [], args.has retainFlag, args.has dryRunFlag⟩), h) := by
  rw [← withoutSwitches_eq_filter] at hargs
  have hvalue : valueAfter fileFlag (withoutSwitches args) = "/c" := by
    rw [hargs, valueAfter_append_pair first]
  have hrest : (withoutSwitches args).without fileFlag true = before ++ after := by
    rw [hargs]
    exact (dropsPair_iff (by decide)).mp (.pair first)
  rw [extract_of_named (by rw [hargs]; simp) (by rw [hvalue]; decide), hvalue, hrest]
  simp only [outcome_bind, outcome_debug, outcome_pure]
  rw [h.accept_debug hquiet, load_minimalText hminimal hquiet]

/-- On the example machine the file is such a file. -/
theorem outcome_extract_configured {before after : Arguments} (first : fileFlag ∉ before)
    (hargs : args.filter (· ∉ [dryRunFlag, retainFlag]) = before ++ fileFlag :: "/c" :: after) :
    outcome (extract answering args) configured =
      (.ok (before ++ after,
        some ⟨1, none, "/opt", [], [], args.has retainFlag, args.has dryRunFlag⟩), configured) :=
  outcome_extract_minimalText rfl rfl first hargs

theorem extract_strips_ownFlags_of_spread :
    outcome (extract answering ["-c", fileFlag, dryRunFlag, "/c", "x.c", retainFlag, dryRunFlag])
        configured =
      (.ok (["-c", "x.c"], some ⟨1, none, "/opt", [], [], true, true⟩), configured) ∧
    ∀ flag ∈ ownFlags, flag ∉ ["-c", "x.c"] := by
  have hextract : outcome (extract answering
      ["-c", fileFlag, dryRunFlag, "/c", "x.c", retainFlag, dryRunFlag]) configured =
      (.ok (["-c"] ++ ["x.c"], some ⟨1, none, "/opt", [], [], true, true⟩), configured) :=
    outcome_extract_configured (by decide) rfl
  have honce : NamesFileOnce ["-c", fileFlag, "/c", "x.c"] :=
    (namesFileOnce_iff_of_dropsPair (.pair (by decide : fileFlag ∉ ["-c"]))).mpr (by decide)
  exact ⟨hextract, (extract_strips_ownFlags_iff hextract).2.mpr honce⟩

/-- Given twice, the flag that names a file is left for the compiler once. -/
theorem extract_leaves_repeated_file :
    outcome (extract answering [fileFlag, "/c", fileFlag, "/c", "-c", "x.c"]) configured =
        (.ok ([fileFlag, "/c", "-c", "x.c"], some ⟨1, none, "/opt", [], [], false, false⟩),
          configured) ∧
      fileFlag ∈ ownFlags ∧ fileFlag ∈ [fileFlag, "/c", "-c", "x.c"] :=
  ⟨outcome_extract_configured (show fileFlag ∉ ([] : Arguments) by decide) rfl, by decide, by decide⟩

end BitcodeWrapper.Config
