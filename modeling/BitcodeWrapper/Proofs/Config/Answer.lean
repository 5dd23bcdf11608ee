import BitcodeWrapper.Probe
import BitcodeWrapper.Proofs.Outcome

/-! What tools answer when they are asked for their version. A tool is asked by its path as the system reads it;
a path that it cannot read leads to no tool. -/
namespace BitcodeWrapper.Probe
open BitcodeWrapper.Action

variable {runner : Runner} {tool : Tool} {path : LooseText} {name : String} {reply : Reply} {h h' : Host}

/-- A refusal to start is an error in the configuration. -/
theorem outcome_ask_of_received (hreceived : path.received? = some name) :
    outcome (ask runner path) h = match outcome (runner [name, versionSwitch] none) h with
      | (.ok reply, h) => (.ok reply, h)
      | (.error (.os e), h) =>
        (.error (.failure (.configuration (.probeNotStarted path (e.givenAs path)))), h)
      | (.error fault, h) => (.error fault, h) := by
  simp only [ask, receivedPath, hreceived, pure_bind, outcome_tryCatch]
  rcases outcome (runner [name, versionSwitch] none) h with ⟨fault | reply, h₁⟩
  · cases fault <;> rfl
  · rfl

theorem outcome_ask_of_not_received (hnone : path.received? = none) :
    ∃ fault k, outcome (ask runner path) h = (.error fault, k) ∧ Host.RecordsTo h k ∧
      ((path.isPassable = false ∧ fault = .invalidValue) ∨
        path.isPassable = true ∧ fault = .failure (.configuration (.probeNotStarted path (refusal path)))) := by
  simp only [ask, receivedPath, hnone, outcome_bind, outcome_get, outcome_debug]
  cases path.isPassable with
  | true => exact ⟨_, _, rfl, (Host.RecordsTo.single h _).accept _, .inr ⟨rfl, rfl⟩⟩
  | false => exact ⟨_, _, rfl, .single h _, .inl ⟨rfl, rfl⟩⟩

theorem outcome_ask_eq_ok_iff : outcome (ask runner path) h = (.ok reply, h') ↔
    ∃ name, path.received? = some name ∧ outcome (runner [name, versionSwitch] none) h = (.ok reply, h') := by
  cases hreceived : path.received? with
  | none =>
    obtain ⟨fault, k, hout, -⟩ := @outcome_ask_of_not_received runner path h hreceived
    rw [hout]
    exact iff_of_false nofun fun ⟨_, hsome, _⟩ => nomatch hsome
  | some name =>
    simp only [outcome_ask_of_received hreceived, Option.some.injEq, exists_eq_left']
    rcases outcome (runner [name, versionSwitch] none) h with ⟨fault | found, h₁⟩
    · cases fault <;> exact iff_of_false nofun nofun
    · exact Iff.rfl

theorem isWithin_iff {mark text : List Char} : isWithin mark text = true ↔ mark <:+: text := by
  induction text with
  | nil => simp [isWithin]
  | cons c rest ih =>
    rw [isWithin, Bool.or_eq_true, List.isPrefixOf_iff_prefix, ih, List.infix_cons_iff]

/-- Asked for its version, the tool succeeds and says what it is. -/
def Answers (runner : Runner) (tool : Tool) (path : LooseText) (h h' : Host) : Prop :=
  ∃ name output, path.received? = some name ∧
    outcome (runner [name, versionSwitch] none) h = (.ok ⟨0, output⟩, h') ∧
      tool.mark.toList <:+: (Text.Utf8.decodeLossy output).toList

theorem outcome_versionText_eq_ok_iff :
    (∃ version, outcome (versionText runner tool path) h = (.ok version, h')) ↔
      Answers runner tool path h h' := by
  simp only [versionText, outcome_bind_eq_ok_iff, outcome_ask_eq_ok_iff]
  constructor
  · rintro ⟨version, ⟨code, output⟩, h₁, ⟨name, hreceived, hreply⟩, hrest⟩
    dsimp only at hrest
    split at hrest
    · exact nomatch hrest
    · rename_i hcode
      split at hrest
      · exact nomatch hrest
      · rename_i hwithin
        cases hrest
        obtain rfl : code = 0 := by simpa using hcode
        exact ⟨name, output, hreceived, hreply, isWithin_iff.mp (by simpa using hwithin)⟩
  · rintro ⟨name, output, hreceived, hreply, hmark⟩
    refine ⟨Text.Utf8.decodeLossy output, _, _, ⟨name, hreceived, hreply⟩, ?_⟩
    simp only [isWithin_iff.mpr hmark, bne_self_eq_false, Bool.false_eq_true, ↓reduceIte, Bool.not_true,
      outcome_pure]

end BitcodeWrapper.Probe
