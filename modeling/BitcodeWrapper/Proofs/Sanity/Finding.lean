import BitcodeWrapper.Proofs.Host.Program
import BitcodeWrapper.Proofs.Text.Utf8
import BitcodeWrapper.Sanity.Executable

/-! What is found when a program is tried. One that starts runs, however it ends, and shows what it printed;
one that does not start is missing or refused. There is no finding if it printed what is not text. -/
namespace BitcodeWrapper.Sanity
open BitcodeWrapper.Action Text.Utf8

variable {path switch : String} {finding : Finding} {finished : Shell.Finished} {fault : Fault}
  {h h' : Host}

/-- What a program printed is text on both of its streams. -/
structure PrintsText (finished : Shell.Finished) : Prop where
  output : IsWellFormed (finished.on .output)
  diagnostics : IsWellFormed (finished.on .diagnostics)

/-- What is found of a program that could not be started. -/
def findingOf (e : OsError) : Finding := if e.errno = .noSuchFile then .missing else .refused e.errno

theorem isUsable_findingOf (e : OsError) : (findingOf e).isUsable = false := by
  rw [findingOf]
  split <;> rfl

/-- A try of a program that ends with a finding. -/
inductive Finds (path switch : String) (h : Host) : Finding → Host → Prop
  | runs {finished : Shell.Finished} {printed complaints : String} {h' : Host}
      (started : outcome (spawn [path, switch] none) h = (.ok finished, h'))
      (output : encode printed = finished.on .output)
      (diagnostics : encode complaints = finished.on .diagnostics) :
      Finds path switch h (.runs (printed ++ complaints)) h'
  | notStarted {e : OsError} {h' : Host}
      (refused : outcome (spawn [path, switch] none) h = (.error (.os e), h')) :
      Finds path switch h (findingOf e) h'

/-- Why a try of a program ends without a finding. -/
inductive TrialEscapes (path switch : String) (h : Host) : Fault → Prop
  | unpassable (holdsNul : Host.isPassable [path, switch] h.environment = false) :
      TrialEscapes path switch h .invalidValue
  | notText {finished : Shell.Finished} {h' : Host}
      (started : outcome (spawn [path, switch] none) h = (.ok finished, h'))
      (unreadable : ¬ PrintsText finished) : TrialEscapes path switch h .notText

theorem printsText_iff : PrintsText finished ↔ ∃ printed complaints,
    encode printed = finished.on .output ∧ encode complaints = finished.on .diagnostics := by
  constructor
  · intro htext
    obtain ⟨printed, hprinted⟩ := isWellFormed_iff.mp htext.output
    obtain ⟨complaints, hcomplaints⟩ := isWellFormed_iff.mp htext.diagnostics
    exact ⟨printed, complaints, hprinted, hcomplaints⟩
  · rintro ⟨printed, complaints, hprinted, hcomplaints⟩
    exact ⟨isWellFormed_iff.mpr ⟨printed, hprinted⟩, isWellFormed_iff.mpr ⟨complaints, hcomplaints⟩⟩

theorem outcome_tryExecutable_of_started
    (hspawn : outcome (spawn [path, switch] none) h = (.ok finished, h')) :
    outcome (tryExecutable path switch) h =
      match decode? (finished.on .output), decode? (finished.on .diagnostics) with
      | some printed, some complaints => (.ok (.runs (printed ++ complaints)), h')
      | _, _ => (.error .notText, h') := by
  simp only [tryExecutable, outcome_bind, outcome_tryCatch, hspawn, outcome_pure]
  cases decode? (finished.on .output) <;> cases decode? (finished.on .diagnostics) <;> rfl

theorem Finds.outcome_eq (hfinds : Finds path switch h finding h') :
    outcome (tryExecutable path switch) h = (.ok finding, h') := by
  cases hfinds with
  | runs started output diagnostics =>
    rw [outcome_tryExecutable_of_started started, decode?_eq_some_iff.mpr output,
      decode?_eq_some_iff.mpr diagnostics]
  | notStarted refused =>
    simp only [tryExecutable, outcome_bind, outcome_tryCatch, refused, outcome_pure, findingOf]

theorem TrialEscapes.raises (hescapes : TrialEscapes path switch h fault) :
    Raises (tryExecutable path switch) h fault := by
  cases hescapes with
  | unpassable holdsNul =>
    refine ⟨h, ?_⟩
    have hspawn : outcome (spawn [path, switch] none) h = (.error .invalidValue, h) :=
      outcome_spawn_of_not_isPassable holdsNul
    simp only [tryExecutable, outcome_bind, outcome_tryCatch, hspawn, outcome_throw]
  | @notText finished h₁ started unreadable =>
    refine ⟨h₁, (outcome_tryExecutable_of_started started).trans ?_⟩
    split
    · rename_i printed complaints hprinted hcomplaints
      have hboth := And.intro (decode?_eq_some_iff.mp hprinted) (decode?_eq_some_iff.mp hcomplaints)
      exact absurd (printsText_iff.mpr ⟨printed, complaints, hboth⟩) unreadable
    · rfl

/-- Every try ends with a finding or for want of one. -/
theorem finds_or_escapes (path switch : String) (h : Host) :
    (∃ finding h', Finds path switch h finding h') ∨ ∃ fault, TrialEscapes path switch h fault := by
  obtain ⟨hpass, -⟩ | ⟨e, hspawn⟩ | ⟨finished, hspawn⟩ := cases_of_spawn [path, switch] none h
  · exact .inr ⟨_, .unpassable hpass⟩
  · exact .inl ⟨_, _, .notStarted hspawn⟩
  · by_cases htext : PrintsText finished
    · obtain ⟨printed, complaints, hprinted, hcomplaints⟩ := printsText_iff.mp htext
      exact .inl ⟨_, _, .runs hspawn hprinted hcomplaints⟩
    · exact .inr ⟨_, .notText hspawn htext⟩

theorem outcome_tryExecutable_eq_ok_iff :
    outcome (tryExecutable path switch) h = (.ok finding, h') ↔ Finds path switch h finding h' := by
  refine ⟨fun hout => ?_, Finds.outcome_eq⟩
  obtain ⟨finding₁, h₁, hfinds⟩ | ⟨fault, hescapes⟩ := finds_or_escapes path switch h
  · cases hfinds.outcome_eq.symm.trans hout
    exact hfinds
  · exact absurd hescapes.raises (not_raises_of_ok hout)

theorem raises_tryExecutable_iff :
    Raises (tryExecutable path switch) h fault ↔ TrialEscapes path switch h fault := by
  refine ⟨fun hraises => ?_, TrialEscapes.raises⟩
  obtain ⟨finding, h', hfinds⟩ | ⟨fault₁, hescapes⟩ := finds_or_escapes path switch h
  · exact absurd hraises (not_raises_of_ok hfinds.outcome_eq)
  · obtain ⟨h₁, hout⟩ := hescapes.raises
    rwa [(raises_iff_of_error hout).mp hraises]

/-- What is found usable is what can be launched. -/
theorem Finds.isUsable_iff (hfinds : Finds path switch h finding h') : finding.isUsable = true ↔
    ∃ finished h₁, outcome (spawn [path, switch] none) h = (.ok finished, h₁) := by
  cases hfinds with
  | runs started => exact iff_of_true rfl ⟨_, _, started⟩
  | notStarted refused =>
    rw [isUsable_findingOf]
    exact iff_of_false nofun fun ⟨_, _, hok⟩ => nomatch refused.symm.trans hok

/-- What cannot be launched changes nothing. -/
theorem Finds.eq_of_not_isUsable (hfinds : Finds path switch h finding h') (hno : finding.isUsable = false) :
    h' = h := by
  cases hfinds with
  | runs => exact nomatch hno
  | notStarted refused =>
    obtain ⟨-, hspawn⟩ | ⟨e, hspawn⟩ | ⟨finished, hspawn⟩ := cases_of_spawn [path, switch] none h
    · exact nomatch hspawn.symm.trans refused
    · exact (Prod.mk.inj (refused.symm.trans hspawn)).2
    · exact nomatch hspawn.symm.trans refused

/-- What cannot be launched shows nothing. -/
theorem not_trialEscapes (hpass : Host.isPassable [path, switch] h.environment = true)
    (hnone : h.program? [path, switch] = none) : ¬ TrialEscapes path switch h fault := by
  obtain ⟨e, hspawn⟩ := refused_of_program?_eq_none hpass hnone
  intro hescapes
  cases hescapes with
  | unpassable holdsNul => exact absurd (hpass.symm.trans holdsNul) (by decide)
  | notText started => exact nomatch hspawn.symm.trans started

end BitcodeWrapper.Sanity
