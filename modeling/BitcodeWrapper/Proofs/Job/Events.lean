import BitcodeWrapper.Job

/-! What a job can go through on any machine: its steps in order, each with the answer it got. The
relation `Follows` fixes nothing about a machine but which of its answers can be refusals. -/
namespace BitcodeWrapper.Job

variable {α β : Type}

/-- The faults that a step can end in. A launch may end in any of them; nothing is refused beyond it
but the making of a directory or a file. -/
def Step.CanFail : Step → Fault → Prop
  | makeWorkspace, fault => ∃ cause, fault = .failure (.workspace cause)
  | createFile _ _, fault =>
    (∃ cause, fault = .failure (.workspace cause)) ∨ fault = .invalidValue
  | launch _ _, _ => True
  | _, _ => False

/-- A step with the answer it got. -/
structure Event where
  step : Step
  answer : Except Fault step.Answer

/-- A job can go through these events and end in this result. -/
inductive Follows : Job α → List Event → Except Fault α → Prop
  | done (a : α) : Follows (done a) [] (.ok a)
  | failed (fault : Fault) : Follows (failed fault) [] (.error fault)
  | step {s : Step} {next : Except Fault s.Answer → Job α} {answer : Except Fault s.Answer}
      {es : List Event} {r : Except Fault α}
      (possible : ∀ fault, answer = .error fault → s.CanFail fault)
      (rest : Follows (next answer) es r) : Follows (step s next) (⟨s, answer⟩ :: es) r

/-- All steps that a job can take, whatever it is answered. -/
def Only (P : Step → Prop) : Job α → Prop
  | done _ => True
  | failed _ => True
  | step s next => P s ∧ ∀ answer, Only P (next answer)

theorem Follows.only {P : Step → Prop} {j : Job α} {es : List Event} {r : Except Fault α}
    (h : Follows j es r) (hj : Only P j) : ∀ e ∈ es, P e.step := by
  induction h with
  | done a => exact List.forall_mem_nil _
  | failed fault => exact List.forall_mem_nil _
  | step possible rest ih => exact List.forall_mem_cons.mpr ⟨hj.1, ih (hj.2 _)⟩

/-- A step that is refused can be. -/
theorem Follows.canFail_of_mem {j : Job α} {es : List Event} {r : Except Fault α}
    (h : Follows j es r) {s : Step} {fault : Fault} (hmem : ⟨s, .error fault⟩ ∈ es) :
    s.CanFail fault := by
  induction h with
  | done a => exact nomatch hmem
  | failed fault => exact nomatch hmem
  | step possible rest ih =>
    rcases List.mem_cons.mp hmem with heq | hmem
    · cases heq
      exact possible fault rfl
    · exact ih hmem

section only
variable {P : Step → Prop}

theorem only_ofExcept (x : Except Fault α) : Only P (ofExcept x) := by
  cases x <;> trivial

theorem only_ask {s : Step} (hs : P s) : Only P (ask s) := ⟨hs, only_ofExcept⟩

theorem only_bind {x : Job α} {f : α → Job β} (hx : Only P x) (hf : ∀ a, Only P (f a)) :
    Only P (x >>= f) := by
  change Only P (bind x f)
  induction x with
  | done a => exact hf a
  | failed fault => trivial
  | step s next ih => exact ⟨hx.1, fun answer => ih answer (hx.2 answer)⟩

theorem only_attempt {x : Job α} (hx : Only P x) : Only P (attempt x) := by
  induction x with
  | done a => trivial
  | failed fault => trivial
  | step s next ih => exact ⟨hx.1, fun answer => ih answer (hx.2 answer)⟩

end only

theorem follows_done_iff {a : α} {es : List Event} {r : Except Fault α} :
    Follows (done a) es r ↔ es = [] ∧ r = .ok a := by
  constructor
  · intro h
    cases h
    exact ⟨rfl, rfl⟩
  · rintro ⟨rfl, rfl⟩
    exact .done a

theorem follows_pure_iff {a : α} {es : List Event} {r : Except Fault α} :
    Follows (pure a) es r ↔ es = [] ∧ r = .ok a :=
  follows_done_iff

theorem follows_failed_iff {fault : Fault} {es : List Event} {r : Except Fault α} :
    Follows (failed fault) es r ↔ es = [] ∧ r = .error fault := by
  constructor
  · intro h
    cases h
    exact ⟨rfl, rfl⟩
  · rintro ⟨rfl, rfl⟩
    exact .failed fault

theorem follows_ofExcept_iff {x : Except Fault α} {es : List Event} {r : Except Fault α} :
    Follows (ofExcept x) es r ↔ es = [] ∧ r = x := by
  cases x with
  | ok a => exact follows_done_iff
  | error fault => exact follows_failed_iff

theorem follows_step_iff {s : Step} {next : Except Fault s.Answer → Job α} {es : List Event}
    {r : Except Fault α} :
    Follows (step s next) es r ↔
      ∃ answer es', (∀ fault, answer = .error fault → s.CanFail fault) ∧
        es = ⟨s, answer⟩ :: es' ∧ Follows (next answer) es' r := by
  constructor
  · intro h
    cases h with
    | step possible rest => exact ⟨_, _, possible, rfl, rest⟩
  · rintro ⟨answer, es', possible, rfl, rest⟩
    exact .step possible rest

theorem follows_ask_iff {s : Step} {es : List Event} {r : Except Fault s.Answer} :
    Follows (ask s) es r ↔ es = [⟨s, r⟩] ∧ ∀ fault, r = .error fault → s.CanFail fault := by
  simp only [ask, follows_step_iff, follows_ofExcept_iff]
  constructor
  · rintro ⟨answer, es', possible, rfl, rfl, rfl⟩
    exact ⟨rfl, possible⟩
  · rintro ⟨rfl, possible⟩
    exact ⟨r, [], possible, rfl, rfl, rfl⟩

theorem follows_makeWorkspace_iff {es : List Event} {r : Except Fault String} :
    Follows makeWorkspace es r ↔
      es = [⟨.makeWorkspace, r⟩] ∧ ∀ fault, r = .error fault → Step.makeWorkspace.CanFail fault :=
  follows_ask_iff

theorem follows_createFile_iff {directory name : String} {es : List Event}
    {r : Except Fault String} :
    Follows (createFile directory name) es r ↔
      es = [⟨.createFile directory name, r⟩] ∧
        ∀ fault, r = .error fault → (Step.createFile directory name).CanFail fault :=
  follows_ask_iff

theorem follows_launch_iff {command : List String} {environment : Option Bindings}
    {es : List Event} {r : Except Fault Reply} :
    Follows (launch command environment) es r ↔ es = [⟨.launch command environment, r⟩] :=
  follows_ask_iff.trans (and_iff_left fun _ _ => trivial)

/-- A step that cannot fail has some answer. -/
theorem follows_ask_iff_of_sure {s : Step} (sure : ∀ fault, ¬ s.CanFail fault) {es : List Event}
    {r : Except Fault s.Answer} :
    Follows (ask s) es r ↔ ∃ a, es = [⟨s, .ok a⟩] ∧ r = .ok a := by
  rw [follows_ask_iff]
  constructor
  · rintro ⟨rfl, possible⟩
    cases r with
    | ok a => exact ⟨a, rfl, rfl⟩
    | error fault => exact (sure fault (possible fault rfl)).elim
  · rintro ⟨a, rfl, rfl⟩
    exact ⟨rfl, nofun⟩

theorem follows_environment_iff {es : List Event} {r : Except Fault Bindings} :
    Follows environment es r ↔ ∃ own, es = [⟨.environment, .ok own⟩] ∧ r = .ok own :=
  follows_ask_iff_of_sure fun _ => id

theorem follows_releaseWorkspace_iff {retain : Bool} {path : String} {es : List Event}
    {r : Except Fault Unit} :
    Follows (releaseWorkspace retain path) es r ↔
      es = [⟨.releaseWorkspace retain path, .ok ()⟩] ∧ r = .ok () :=
  (follows_ask_iff_of_sure fun _ => id).trans ⟨fun ⟨_, h⟩ => h, fun h => ⟨(), h⟩⟩

theorem follows_log_iff {level : Log.Level} {message : String} {es : List Event}
    {r : Except Fault Unit} :
    Follows (log level message) es r ↔ es = [⟨.log level message, .ok ()⟩] ∧ r = .ok () :=
  (follows_ask_iff_of_sure fun _ => id).trans ⟨fun ⟨_, h⟩ => h, fun h => ⟨(), h⟩⟩

theorem follows_echo_iff {output : Bytes} {es : List Event} {r : Except Fault Unit} :
    Follows (echo output) es r ↔ es = [⟨.echo output, .ok ()⟩] ∧ r = .ok () :=
  (follows_ask_iff_of_sure fun _ => id).trans ⟨fun ⟨_, h⟩ => h, fun h => ⟨(), h⟩⟩

/-- One job after another: either the first one ends it, or the events of the two are joined. -/
theorem follows_bind_iff {x : Job α} {f : α → Job β} {es : List Event} {r : Except Fault β} :
    Follows (x >>= f) es r ↔
      (∃ fault, Follows x es (.error fault) ∧ r = .error fault) ∨
        ∃ a es₁ es₂, es = es₁ ++ es₂ ∧ Follows x es₁ (.ok a) ∧ Follows (f a) es₂ r := by
  change Follows (bind x f) es r ↔ _
  induction x generalizing es with
  | done a =>
    simp only [bind, follows_done_iff]
    constructor
    · exact fun h => .inr ⟨a, [], es, rfl, ⟨rfl, rfl⟩, h⟩
    · rintro (⟨fault, ⟨-, ⟨⟩⟩, -⟩ | ⟨_, _, _, rfl, ⟨rfl, ⟨⟩⟩, h⟩)
      exact h
  | failed fault =>
    simp only [bind, follows_failed_iff]
    constructor
    · exact fun h => .inl ⟨fault, ⟨h.1, rfl⟩, h.2⟩
    · rintro (⟨_, ⟨rfl, ⟨⟩⟩, rfl⟩ | ⟨_, _, _, -, ⟨-, ⟨⟩⟩, -⟩)
      exact ⟨rfl, rfl⟩
  | step s next ih =>
    simp only [bind, follows_step_iff, ih]
    constructor
    · rintro ⟨answer, es', possible, rfl, ⟨fault, h, rfl⟩ | ⟨a, es₁, es₂, rfl, h₁, h₂⟩⟩
      · exact .inl ⟨fault, ⟨answer, es', possible, rfl, h⟩, rfl⟩
      · exact .inr ⟨a, _ :: es₁, es₂, rfl, ⟨answer, es₁, possible, rfl, h₁⟩, h₂⟩
    · rintro (⟨fault, ⟨answer, es', possible, rfl, h⟩, rfl⟩ |
        ⟨a, _, es₂, rfl, ⟨answer, es', possible, rfl, h₁⟩, h₂⟩)
      · exact ⟨answer, es', possible, rfl, .inl ⟨fault, h, rfl⟩⟩
      · exact ⟨answer, es' ++ es₂, possible, rfl, .inr ⟨a, es', es₂, rfl, h₁, h₂⟩⟩

theorem follows_log_bind_iff {level : Log.Level} {message : String} {f : Unit → Job β}
    {es : List Event} {r : Except Fault β} :
    Follows (log level message >>= f) es r ↔
      ∃ es', es = ⟨.log level message, .ok ()⟩ :: es' ∧ Follows (f ()) es' r := by
  simp only [follows_bind_iff, follows_log_iff]
  constructor
  · rintro (⟨_, ⟨-, ⟨⟩⟩, -⟩ | ⟨_, _, es', rfl, ⟨rfl, ⟨⟩⟩, h⟩)
    exact ⟨es', rfl, h⟩
  · rintro ⟨es', rfl, h⟩
    exact .inr ⟨(), [_], es', rfl, ⟨rfl, trivial⟩, h⟩

/-- A job that begins with a file ends there if the file cannot be made. -/
theorem follows_createFile_bind_iff {directory name : String} {f : String → Job β} {es : List Event}
    {r : Except Fault β} :
    Follows (createFile directory name >>= f) es r ↔
      (∃ fault, (Step.createFile directory name).CanFail fault ∧
        es = [⟨.createFile directory name, .error fault⟩] ∧ r = .error fault) ∨
      ∃ path es', es = ⟨.createFile directory name, .ok path⟩ :: es' ∧ Follows (f path) es' r := by
  simp only [follows_bind_iff, follows_createFile_iff]
  constructor
  · rintro (⟨fault, ⟨rfl, possible⟩, rfl⟩ | ⟨path, _, es', rfl, ⟨rfl, -⟩, h⟩)
    · exact .inl ⟨fault, possible fault rfl, rfl, rfl⟩
    · exact .inr ⟨path, es', rfl, h⟩
  · rintro (⟨fault, possible, rfl, rfl⟩ | ⟨path, es', rfl, h⟩)
    · exact .inl ⟨fault, ⟨rfl, fun _ h => by cases h; exact possible⟩, rfl⟩
    · exact .inr ⟨path, [_], es', rfl, ⟨rfl, nofun⟩, h⟩

theorem follows_environment_bind_iff {f : Bindings → Job β} {es : List Event} {r : Except Fault β} :
    Follows (environment >>= f) es r ↔
      ∃ own es', es = ⟨.environment, .ok own⟩ :: es' ∧ Follows (f own) es' r := by
  simp only [follows_bind_iff, follows_environment_iff]
  constructor
  · rintro (⟨_, ⟨_, -, ⟨⟩⟩, -⟩ | ⟨own, _, es', rfl, ⟨_, rfl, ⟨⟩⟩, h⟩)
    exact ⟨own, es', rfl, h⟩
  · rintro ⟨own, es', rfl, h⟩
    exact .inr ⟨own, [_], es', rfl, ⟨own, rfl, rfl⟩, h⟩

theorem follows_attempt_iff {x : Job α} {es : List Event} {r : Except Fault (Except Fault α)} :
    Follows (attempt x) es r ↔ ∃ r', r = .ok r' ∧ Follows x es r' := by
  induction x generalizing es with
  | done a =>
    simp only [attempt, follows_done_iff]
    exact ⟨fun h => ⟨_, h.2, h.1, rfl⟩, by rintro ⟨_, rfl, rfl, rfl⟩; exact ⟨rfl, rfl⟩⟩
  | failed fault =>
    simp only [attempt, follows_done_iff, follows_failed_iff]
    exact ⟨fun h => ⟨_, h.2, h.1, rfl⟩, by rintro ⟨_, rfl, rfl, rfl⟩; exact ⟨rfl, rfl⟩⟩
  | step s next ih =>
    simp only [attempt, follows_step_iff, ih]
    constructor
    · rintro ⟨answer, es', possible, rfl, r', rfl, h⟩
      exact ⟨r', rfl, answer, es', possible, rfl, h⟩
    · rintro ⟨r', rfl, answer, es', possible, rfl, h⟩
      exact ⟨answer, es', possible, rfl, r', rfl, h⟩

/-- A workspace is released once, after everything else, unless it could not be made. -/
theorem follows_withWorkspace_iff {retain : Bool} {body : String → Job α} {es : List Event}
    {r : Except Fault α} :
    Follows (withWorkspace retain body) es r ↔
      (∃ fault, Step.makeWorkspace.CanFail fault ∧
        es = [⟨.makeWorkspace, .error fault⟩] ∧ r = .error fault) ∨
      ∃ path es', Follows (body path) es' r ∧
        es = ⟨.makeWorkspace, .ok path⟩ :: (es' ++ [⟨.releaseWorkspace retain path, .ok ()⟩]) := by
  simp only [withWorkspace, follows_bind_iff, follows_makeWorkspace_iff, follows_attempt_iff,
    follows_releaseWorkspace_iff, follows_ofExcept_iff]
  constructor
  · rintro (⟨fault, ⟨rfl, possible⟩, rfl⟩ | ⟨path, _, _, rfl, ⟨rfl, -⟩, h⟩)
    · exact .inl ⟨fault, possible fault rfl, rfl, rfl⟩
    · rcases h with ⟨fault, ⟨_, ⟨⟩, -⟩, -⟩ | ⟨result, es', _, rfl, ⟨_, ⟨⟩, hbody⟩, h⟩
      rcases h with ⟨_, ⟨-, ⟨⟩⟩, -⟩ | ⟨_, _, _, rfl, ⟨rfl, -⟩, rfl, rfl⟩
      exact .inr ⟨path, es', hbody, rfl⟩
  · rintro (⟨fault, possible, rfl, rfl⟩ | ⟨path, es', hbody, rfl⟩)
    · exact .inl ⟨fault, ⟨rfl, fun _ h => by cases h; exact possible⟩, rfl⟩
    · refine .inr ⟨path, [_], _, rfl, ⟨rfl, nofun⟩, ?_⟩
      refine .inr ⟨r, es', _, rfl, ⟨r, rfl, hbody⟩, ?_⟩
      exact .inr ⟨(), [_], [], rfl, ⟨rfl, trivial⟩, rfl, rfl⟩

end BitcodeWrapper.Job
