import BitcodeWrapper.LogSetup
import BitcodeWrapper.Proofs.Host.Absolute
import BitcodeWrapper.Proofs.Host.Growth
import BitcodeWrapper.Proofs.Text.Utf8

/-! What is logged once logging is set up. The threshold and the form of the lines are settled then, and every
line that is shown is added to the copy. -/
namespace BitcodeWrapper.LogSetup
open BitcodeWrapper.Action Log Text.Utf8

variable {isVerbose : Bool} {level text text' : String} {t t' : Level} {r : Record} {rs : List Record}
  {copy : Option Location} {before : Bytes} {h h' h'' : Host}

/-- From one machine to the other a text was shown, and the same text was added to the copy. -/
structure Shows (copy : Option Location) (before : Bytes) (h h' : Host) (text : String) : Prop where
  diagnostics : h'.diagnostics = h.diagnostics ++ text
  copied : ∀ loc, copy = some loc →
    ∃ isExecutable, h'.files.get? loc = some (.file (before ++ encode text) isExecutable)
  elsewhere : ∀ loc, copy ≠ some loc → h'.files.get? loc = h.files.get? loc

/-- A line that is written is shown and added to the copy. -/
theorem Shows.writeRecord (hs : Shows copy before h h' text) (hsetup : h'.logging = .configured t copy)
    (r : Record) : Shows copy before h (h'.writeRecord r) (text ++ (formFor t).write r) := by
  have hline : h'.logging.form = formFor t := by rw [hsetup]; rfl
  have hcopy : h'.logging.copyTo = copy := by rw [hsetup]; rfl
  have hshown : h'.logging.toDiagnostics = true := by rw [hsetup]; rfl
  refine ⟨?_, fun loc hloc => ?_, fun loc hloc => ?_⟩
  · simp only [Host.writeRecord, hshown, ↓reduceIte, hline, hs.diagnostics, String.append_assoc]
  · obtain ⟨isExecutable, hfile⟩ := hs.copied loc hloc
    refine ⟨isExecutable, ?_⟩
    simp only [Host.writeRecord, hcopy, hloc, hline]
    rw [Files.get?_append hfile, if_pos rfl, encode_append, List.append_assoc]
  · rw [← hs.elsewhere loc hloc]
    cases copy with
    | none => simp only [Host.writeRecord, hcopy]
    | some file =>
      obtain ⟨isExecutable, hfile⟩ := hs.copied file rfl
      simp only [Host.writeRecord, hcopy, hline]
      rw [Files.get?_append hfile, if_neg fun heq => hloc (congrArg some heq.symm)]

/-- The lines of the records that reach the threshold, in order. -/
def lines (t : Level) (form : Form) (rs : List Record) : String :=
  String.join ((rs.filter fun r => t.rank ≤ r.level.rank).map fun r => form.write r)

theorem Shows.accept_of_passes (hs : Shows copy before h h' text) (hsetup : h'.logging = .configured t copy)
    (hpasses : passes t r = true) : Shows copy before h (h'.accept r) (text ++ (formFor t).write r) := by
  have hthreshold : h'.logging.threshold = t := by rw [hsetup]; rfl
  have hkept : Shows copy before h
      { h' with records := if r.isKept = true then h'.records ++ [r] else h'.records } text :=
    ⟨hs.diagnostics, hs.copied, hs.elsewhere⟩
  rw [Host.accept, hthreshold, if_pos hpasses]
  exact hkept.writeRecord hsetup r

/-- A record of ours that reaches the threshold is written once, and another one is not. -/
theorem Shows.accept (hs : Shows copy before h h' text) (hsetup : h'.logging = .configured t copy)
    (hours : r.isOurs = true) :
    Shows copy before h (h'.accept r) (text ++ if t.rank ≤ r.level.rank then (formFor t).write r else "") := by
  have hpasses : passes t r = decide (t.rank ≤ r.level.rank) := by rw [passes, if_pos hours]
  by_cases hreached : t.rank ≤ r.level.rank
  · rw [if_pos hreached]
    exact hs.accept_of_passes hsetup (hpasses.trans (decide_eq_true hreached))
  · have hthreshold : h'.logging.threshold = t := by rw [hsetup]; rfl
    rw [if_neg hreached, String.append_empty, Host.accept, hthreshold, hpasses, if_neg (by simpa using hreached)]
    exact hs

/-- A machine that asks for a level and for a copy. -/
def copying : Host :=
  .fresh ⟨[(["l"], .file (encode "old\n") false)]⟩ [(destinationVariable, "/l"), (levelVariable, "info")]

/-- Three records, the first of them below that level. -/
def noted : List Record :=
  [copying.ownRecord .debug "a", copying.ownRecord .info "b", copying.ownRecord .error "c"]

end BitcodeWrapper.LogSetup
