import BitcodeWrapper.Host.Resolve

/-! How computations on the machine end, and the machine that they leave. -/
namespace BitcodeWrapper

namespace Action
variable {α β : Type}

/-- How a computation ends, and the machine that it leaves. -/
def outcome (x : Action α) (h : Host) : Except Fault α × Host :=
  match x.run h with
  | .ok a h => (.ok a, h)
  | .error fault h => (.error fault, h)

@[simp] theorem outcome_pure (a : α) (h : Host) : outcome (pure a) h = (.ok a, h) := rfl

@[simp] theorem outcome_throw (fault : Fault) (h : Host) :
    outcome (throw fault : Action α) h = (.error fault, h) := rfl

@[simp] theorem outcome_get (h : Host) : outcome get h = (.ok h, h) := rfl

@[simp] theorem outcome_set (h h' : Host) : outcome (set h') h = (.ok ⟨⟩, h') := rfl

@[simp] theorem outcome_modify (f : Host → Host) (h : Host) :
    outcome (modify f) h = (.ok ⟨⟩, f h) := rfl

@[simp] theorem outcome_fail (cause : Failure) (h : Host) :
    outcome (fail cause : Action α) h = (.error (.failure cause), h) := rfl

@[simp] theorem outcome_log (level : Log.Level) (message : String) (h : Host) :
    outcome (log level message) h = (.ok ⟨⟩, h.accept (h.ownRecord level message)) := rfl

@[simp] theorem outcome_debug (message : String) (h : Host) :
    outcome (debug message) h = (.ok ⟨⟩, h.accept (h.ownRecord .debug message)) := rfl

theorem outcome_bind (x : Action α) (f : α → Action β) (h : Host) :
    outcome (x >>= f) h = match outcome x h with
      | (.ok a, h) => outcome (f a) h
      | (.error fault, h) => (.error fault, h) := by
  simp only [outcome, EStateM.run, Bind.bind, EStateM.bind]
  cases x h <;> rfl

/-- A computation in two parts succeeds exactly if both of them do. -/
theorem outcome_bind_eq_ok_iff {x : Action α} {f : α → Action β} {h h' : Host} {b : β} :
    outcome (x >>= f) h = (.ok b, h') ↔
      ∃ a h₁, outcome x h = (.ok a, h₁) ∧ outcome (f a) h₁ = (.ok b, h') := by
  rw [outcome_bind]
  rcases outcome x h with ⟨fault | a, h₁⟩
  · exact iff_of_false (fun hf => nomatch hf) fun ⟨_, _, hx, _⟩ => nomatch hx
  · constructor
    · exact fun hf => ⟨a, h₁, rfl, hf⟩
    · rintro ⟨a, h₁, ⟨⟩, hf⟩
      exact hf

/-- A fault comes out. -/
def Raises (x : Action α) (h : Host) (fault : Fault) : Prop := ∃ h', outcome x h = (.error fault, h')

theorem raises_iff_of_error {x : Action α} {h h' : Host} {fault raised : Fault}
    (hout : outcome x h = (.error raised, h')) : Raises x h fault ↔ fault = raised := by
  constructor
  · rintro ⟨_, hfault⟩
    exact Except.error.inj (Prod.mk.inj (hfault.symm.trans hout)).1
  · rintro rfl
    exact ⟨h', hout⟩

theorem not_raises_of_ok {x : Action α} {h h' : Host} {fault : Fault} {a : α}
    (hout : outcome x h = (.ok a, h')) : ¬ Raises x h fault := fun ⟨_, hfault⟩ =>
  nomatch hout.symm.trans hfault

/-- What raises nothing has an answer. -/
theorem exists_ok_iff {x : Action α} {h : Host} :
    (∃ a h', outcome x h = (.ok a, h')) ↔ ∀ fault, ¬ Raises x h fault := by
  constructor
  · rintro ⟨a, h', hout⟩ fault
    exact not_raises_of_ok hout
  · intro hnone
    rcases hout : outcome x h with ⟨fault | a, h'⟩
    · exact absurd ⟨h', hout⟩ (hnone fault)
    · exact ⟨a, h', rfl⟩

theorem raises_bind_of_ok {x : Action α} {f : α → Action β} {h h₁ : Host} {fault : Fault} {a : α}
    (hout : outcome x h = (.ok a, h₁)) : Raises (x >>= f) h fault ↔ Raises (f a) h₁ fault := by
  rw [Raises, Raises, outcome_bind, hout]

/-- A fault comes out of the first part, or out of what follows on its success. -/
theorem raises_bind_iff {x : Action α} {f : α → Action β} {h : Host} {fault : Fault} :
    Raises (x >>= f) h fault ↔
      Raises x h fault ∨ ∃ a h₁, outcome x h = (.ok a, h₁) ∧ Raises (f a) h₁ fault := by
  rcases hout : outcome x h with ⟨raised | a, h₁⟩
  · have hboth : outcome (x >>= f) h = (.error raised, h₁) := by rw [outcome_bind, hout]
    rw [raises_iff_of_error hboth, raises_iff_of_error hout, or_iff_left]
    exact fun ⟨_, _, hok, _⟩ => nomatch hok
  · rw [raises_bind_of_ok hout, or_iff_right (not_raises_of_ok hout)]
    constructor
    · exact fun hrest => ⟨a, h₁, rfl, hrest⟩
    · rintro ⟨_, _, ⟨⟩, hrest⟩
      exact hrest

/-- What was done before a fault stays done when the fault is handled. -/
theorem outcome_tryCatch (x : Action α) (f : Fault → Action α) (h : Host) :
    outcome (tryCatch x f) h = match outcome x h with
      | (.ok a, h) => (.ok a, h)
      | (.error fault, h) => outcome (f fault) h := by
  simp only [outcome, EStateM.run, tryCatch, tryCatchThe, MonadExceptOf.tryCatch]
  unfold EStateM.tryCatch
  cases x h <;> rfl

/-- What is looked at of the machine is left as it is. -/
def Keeps {γ : Type} (look : Host → γ) (x : Action α) : Prop := ∀ h, look (outcome x h).2 = look h

theorem Keeps.bind {γ : Type} {look : Host → γ} {x : Action α} {f : α → Action β}
    (hx : Keeps look x) (hf : ∀ a, Keeps look (f a)) : Keeps look (x >>= f) := by
  intro h
  have hfirst := hx h
  rw [outcome_bind]
  split
  · rename_i a h₁ ho
    rw [ho] at hfirst
    exact (hf a h₁).trans hfirst
  · rename_i fault h₁ ho
    rwa [ho] at hfirst

end Action

namespace Host

/-- A machine on which nothing has happened yet, which makes workspaces in `/tmp`. -/
def fresh (files : Files) (environment : Bindings) : Host where
  files := files
  here := []
  environment := environment
  accounts := []
  temporary := "/tmp"
  attempts := 0
  logging := .silent
  records := []
  output := []
  diagnostics := ""
  launches := []

section accept
variable (h : Host) (r : Log.Record)

@[simp] theorem launches_accept : (h.accept r).launches = h.launches := by
  simp only [accept, writeRecord]
  split <;> rfl

@[simp] theorem here_accept : (h.accept r).here = h.here := by
  simp only [accept, writeRecord]
  split <;> rfl

@[simp] theorem environment_accept : (h.accept r).environment = h.environment := by
  simp only [accept, writeRecord]
  split <;> rfl

@[simp] theorem accounts_accept : (h.accept r).accounts = h.accounts := by
  simp only [accept, writeRecord]
  split <;> rfl

@[simp] theorem account_accept : (h.accept r).account = h.account := by
  simp only [accept, writeRecord]
  split <;> rfl

@[simp] theorem temporary_accept : (h.accept r).temporary = h.temporary := by
  simp only [accept, writeRecord]
  split <;> rfl

@[simp] theorem attempts_accept : (h.accept r).attempts = h.attempts := by
  simp only [accept, writeRecord]
  split <;> rfl

@[simp] theorem logging_accept : (h.accept r).logging = h.logging := by
  simp only [accept, writeRecord]
  split <;> rfl

@[simp] theorem output_accept : (h.accept r).output = h.output := by
  simp only [accept, writeRecord]
  split <;> rfl

/-- Records that are not copied leave the files alone. -/
theorem files_accept_of_copyTo (hcopy : h.logging.copyTo = none) : (h.accept r).files = h.files := by
  simp only [accept, writeRecord, hcopy]
  split <;> rfl

/-- Where warnings are logged, debugging leaves no trace. -/
theorem accept_debug (hquiet : h.logging.threshold = .warning) (message : String) :
    h.accept (h.ownRecord .debug message) = h := by
  simp only [accept, Log.passes, ownRecord, hquiet]
  rfl

end accept

/-- Only records were written in between. -/
inductive RecordsTo (h : Host) : Host → Prop
  | refl : RecordsTo h h
  | accept {h' : Host} (earlier : RecordsTo h h') (r : Log.Record) : RecordsTo h (h'.accept r)

theorem RecordsTo.single (h : Host) (r : Log.Record) : RecordsTo h (h.accept r) :=
  .accept .refl r

theorem RecordsTo.trans {h₁ h₂ h₃ : Host} (h₁₂ : RecordsTo h₁ h₂) (h₂₃ : RecordsTo h₂ h₃) :
    RecordsTo h₁ h₃ := by
  induction h₂₃ with
  | refl => exact h₁₂
  | accept earlier r ih => exact ih.accept r

theorem RecordsTo.launches_eq {h h' : Host} (hr : RecordsTo h h') : h'.launches = h.launches := by
  induction hr with
  | refl => rfl
  | accept earlier r ih => rw [launches_accept, ih]

/-- What records cannot change. -/
theorem RecordsTo.machine_eq {h h' : Host} (hr : RecordsTo h h') :
    h'.here = h.here ∧ h'.temporary = h.temporary ∧ h'.attempts = h.attempts ∧
      h'.logging = h.logging := by
  induction hr with
  | refl => exact ⟨rfl, rfl, rfl, rfl⟩
  | accept earlier r ih =>
    rwa [here_accept, temporary_accept, attempts_accept, logging_accept]

/-- Records are not printed. -/
theorem RecordsTo.output_eq {h h' : Host} (hr : RecordsTo h h') : h'.output = h.output := by
  induction hr with
  | refl => rfl
  | accept earlier r ih => rw [output_accept, ih]

theorem RecordsTo.files_eq {h h' : Host} (hr : RecordsTo h h') (hcopy : h.logging.copyTo = none) :
    h'.files = h.files := by
  induction hr with
  | refl => rfl
  | accept earlier r ih =>
    rw [files_accept_of_copyTo _ r (by rwa [earlier.machine_eq.2.2.2]), ih]

/-- A path cannot be made absolute for two reasons only. -/
theorem fault_of_expandPath {h : Host} {path : String} {followLinks : Bool} {fault : Fault}
    (hf : h.expandPath path followLinks = .error fault) :
    fault = .invalidValue ∨ ∃ e, fault = .os e := by
  unfold expandPath at hf
  dsimp only at hf
  by_cases hnul : ((followLinks && Files.hasNul (h.expandText path)) ||
      Path.namesAccountWithNul path) = true
  · rw [if_pos hnul] at hf
    exact .inl (Except.error.inj hf).symm
  · rw [if_neg hnul] at hf
    generalize (if followLinks then _ else _) = whole at hf
    split at hf
    · exact nomatch hf
    · exact .inr ⟨_, (Except.error.inj hf).symm⟩

end Host

end BitcodeWrapper
