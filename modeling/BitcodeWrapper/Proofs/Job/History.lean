import BitcodeWrapper.Proofs.Job.Events
import BitcodeWrapper.Proofs.Workspace.Creation

/-! The history of a job on a machine: its events with the machine before and after each of them. Every
history is one that the job can go through, so what holds of all its events holds on every machine. -/
namespace BitcodeWrapper

namespace Job
open BitcodeWrapper.Action

variable {α β : Type}

/-- What a step answers on a machine, and what becomes of the machine. -/
def Step.outcome (runner : Runner) (s : Step) (h : Host) : Except Fault s.Answer × Host :=
  Action.outcome (s.perform runner) h

namespace Step
variable (runner : Runner) (h : Host)

theorem outcome_launch (command : List String) (environment : Option Bindings) :
    (launch command environment).outcome runner h =
      let noted := h.launches ++ [⟨command, environment, h.files⟩]
      let out := Action.outcome (runner command environment) { h with launches := noted }
      (out.1, { out.2 with launches := noted }) := by
  simp only [outcome, perform, Action.outcome, Runner.launch, EStateM.run]
  cases runner command environment _ <;> rfl

theorem outcome_retain (path : String) :
    (releaseWorkspace true path).outcome runner h =
      (.ok (), { h with
        diagnostics := h.diagnostics ++ ("conjunct: retaining temp dir " ++ path ++ "\n") }) := rfl

theorem outcome_environment :
    environment.outcome runner h = (.ok h.environment, h) := rfl

theorem outcome_echo (output : Bytes) :
    (echo output).outcome runner h = (.ok (), { h with output := h.output ++ output }) := rfl

theorem outcome_log (level : Log.Level) (message : String) :
    (log level message).outcome runner h = (.ok (), h.accept (h.ownRecord level message)) := rfl

/-- Removing a workspace takes out the directory that its path leads to, if it leads to one. -/
theorem outcome_remove (path : String) :
    (releaseWorkspace false path).outcome runner h =
      (.ok (),
        let h := h.accept (h.ownRecord .debug ("Removing temp dir " ++ path))
        match h.files.find h.here false path with
        | .ok ⟨loc, some .directory⟩ => { h with files := h.files.remove loc }
        | _ => h) := rfl

end Step

/-- On every machine a step fails only in the ways that are left to it. -/
theorem Step.canFail_of_outcome {runner : Runner} {s : Step} {h : Host} {fault : Fault}
    (hf : (s.outcome runner h).1 = .error fault) : s.CanFail fault := by
  cases s with
  | makeWorkspace =>
    obtain ⟨cause, ho⟩ | ⟨loc, -, ho⟩ := Workspace.outcome_make h <;>
      simp only [outcome, perform, ho] at hf
    · cases hf
      exact ⟨cause, rfl⟩
    · exact nomatch hf
  | createFile directory name =>
    obtain ⟨fault', hc, ho⟩ | ⟨files, loc, -, ho⟩ := Workspace.outcome_createFile directory name h <;>
      simp only [outcome, perform, ho] at hf
    · cases hf
      exact hc
    · exact Workspace.canFail_of_fileAnswer hf
  | launch command environment => trivial
  | releaseWorkspace retain path => cases retain <;> exact nomatch hf
  | environment => exact nomatch hf
  | echo output => exact nomatch hf
  | log level message => exact nomatch hf

/-- An event with the machine before it and after it. -/
structure Moment where
  before : Host
  event : Event
  after : Host

/-- The moments of a run, in order. -/
def history (runner : Runner) : Job α → Host → List Moment
  | done _, _ => []
  | failed _, _ => []
  | step s next, h =>
    let out := s.outcome runner h
    ⟨h, ⟨s, out.1⟩, out.2⟩ :: history runner (next out.1) out.2

def events (runner : Runner) (j : Job α) (h : Host) : List Event :=
  (j.history runner h).map (·.event)

@[simp] theorem outcome_run_done (runner : Runner) (a : α) (h : Host) :
    outcome (run runner (done a)) h = (.ok a, h) := rfl

@[simp] theorem outcome_run_failed (runner : Runner) (fault : Fault) (h : Host) :
    outcome (run runner (failed fault : Job α)) h = (.error fault, h) := rfl

theorem outcome_run_step (runner : Runner) (s : Step) (next : Except Fault s.Answer → Job α)
    (h : Host) :
    outcome (run runner (step s next)) h =
      outcome (run runner (next (s.outcome runner h).1)) (s.outcome runner h).2 := by
  simp only [outcome, Step.outcome, run, EStateM.run]
  cases s.perform runner h <;> rfl

/-- What happens on a machine is one of the ways that the job can go. -/
theorem follows_events (runner : Runner) (j : Job α) (h : Host) :
    Follows j (j.events runner h) (outcome (j.run runner) h).1 := by
  induction j generalizing h with
  | done a => exact .done a
  | failed fault => exact .failed fault
  | step s next ih =>
    rw [outcome_run_step]
    exact .step (fun _ => Step.canFail_of_outcome) (ih _ _)

/-- A value that is worked on at the end makes no more moments. -/
theorem history_bind_pure (runner : Runner) (x : Job α) (g : α → β) (h : Host) :
    history runner (x >>= fun a => pure (g a)) h = history runner x h := by
  change history runner (bind x fun a => done (g a)) h = history runner x h
  induction x generalizing h with
  | done a => rfl
  | failed fault => rfl
  | step s next ih => exact congrArg (List.cons _) (ih _ _)

/-- A machine passes through these moments, each one beginning where the one before it ends. -/
inductive Passes (runner : Runner) : Host → List Moment → Host → Prop
  | nil (h : Host) : Passes runner h [] h
  | cons {s : Step} {h h' : Host} {ms : List Moment}
      (rest : Passes runner (s.outcome runner h).2 ms h') :
      Passes runner h (⟨h, ⟨s, (s.outcome runner h).1⟩, (s.outcome runner h).2⟩ :: ms) h'

theorem passes_history (runner : Runner) (j : Job α) (h : Host) :
    Passes runner h (j.history runner h) (outcome (j.run runner) h).2 := by
  induction j generalizing h with
  | done a => exact .nil h
  | failed fault => exact .nil h
  | step s next ih =>
    rw [outcome_run_step]
    exact .cons (ih _ _)

theorem passes_append_iff {runner : Runner} {h h' : Host} {ms ms' : List Moment} :
    Passes runner h (ms ++ ms') h' ↔ ∃ h₁, Passes runner h ms h₁ ∧ Passes runner h₁ ms' h' := by
  induction ms generalizing h with
  | nil =>
    constructor
    · exact fun hp => ⟨h, .nil h, hp⟩
    · rintro ⟨_, ⟨⟩, hp⟩
      exact hp
  | cons m ms ih =>
    constructor
    · intro h
      cases h with
      | cons rest =>
        obtain ⟨h₁, hp, hp'⟩ := ih.mp rest
        exact ⟨h₁, .cons hp, hp'⟩
    · rintro ⟨h₁, hp, hp'⟩
      cases hp with
      | cons rest => exact .cons (ih.mpr ⟨h₁, rest, hp'⟩)

/-- The moment of a step. -/
theorem passes_cons_iff {runner : Runner} {h h' : Host} {m : Moment} {ms : List Moment} :
    Passes runner h (m :: ms) h' ↔
      m.before = h ∧ m.event.step.outcome runner h = (m.event.answer, m.after) ∧
        Passes runner m.after ms h' := by
  constructor
  · intro h
    cases h with
    | cons rest => exact ⟨rfl, rfl, rest⟩
  · obtain ⟨before, ⟨s, answer⟩, after⟩ := m
    rintro ⟨rfl, hs, rest⟩
    dsimp only at hs rest ⊢
    obtain ⟨rfl, rfl⟩ : (s.outcome runner before).1 = answer ∧
        (s.outcome runner before).2 = after := by simp [hs]
    exact .cons rest

theorem Passes.outcome_of_mem {runner : Runner} {h h' : Host} {ms : List Moment}
    (hp : Passes runner h ms h') {m : Moment} (hm : m ∈ ms) :
    m.event.step.outcome runner m.before = (m.event.answer, m.after) := by
  induction hp with
  | nil h => exact nomatch hm
  | cons rest ih =>
    rcases List.mem_cons.mp hm with rfl | hm
    · rfl
    · exact ih hm

/-- The moment of a single event. -/
theorem Passes.single {runner : Runner} {h h' : Host} {ms : List Moment} {e : Event}
    (hp : Passes runner h ms h') (he : ms.map (·.event) = [e]) :
    ms = [⟨h, e, h'⟩] ∧ e.step.outcome runner h = (e.answer, h') := by
  obtain ⟨⟨before, e, after⟩, rfl, rfl⟩ := List.map_eq_singleton_iff.mp he
  obtain ⟨rfl, hout, hrest⟩ := passes_cons_iff.mp hp
  cases hrest
  exact ⟨rfl, hout⟩

/-- A machine stands between what happens first and what happens then. -/
theorem Passes.split {runner : Runner} {h h' : Host} {ms : List Moment} {es es' : List Event}
    (hp : Passes runner h ms h') (he : ms.map (·.event) = es ++ es') :
    ∃ ms₁ ms₂ h₁, ms = ms₁ ++ ms₂ ∧ ms₁.map (·.event) = es ∧ ms₂.map (·.event) = es' ∧
      Passes runner h ms₁ h₁ ∧ Passes runner h₁ ms₂ h' := by
  obtain ⟨ms₁, ms₂, rfl, hes, hes'⟩ := List.map_eq_append_iff.mp he
  obtain ⟨h₁, hp₁, hp₂⟩ := passes_append_iff.mp hp
  exact ⟨ms₁, ms₂, h₁, rfl, hes, hes', hp₁, hp₂⟩

/-- What every moment keeps is kept from the first to the last. -/
theorem Passes.keeps {runner : Runner} {I : Host → Prop} {h h' : Host} {ms : List Moment}
    (hp : Passes runner h ms h')
    (hstep : ∀ m ∈ ms, m.event.step.outcome runner m.before = (m.event.answer, m.after) →
      I m.before → I m.after) (hI : I h) : (∀ m ∈ ms, I m.before) ∧ I h' := by
  induction hp with
  | nil h => exact ⟨List.forall_mem_nil _, hI⟩
  | cons rest ih =>
    obtain ⟨hbefore, hlast⟩ := ih (fun m hm => hstep m (List.mem_cons_of_mem _ hm))
      (hstep _ List.mem_cons_self rfl hI)
    exact ⟨List.forall_mem_cons.mpr ⟨hI, hbefore⟩, hlast⟩

/-- What every moment does to the machine is done from each moment to all later ones. -/
theorem Passes.pairwise {runner : Runner} {R : Host → Host → Prop} (hrefl : ∀ h, R h h)
    (htrans : ∀ {h₁ h₂ h₃}, R h₁ h₂ → R h₂ h₃ → R h₁ h₃) {h h' : Host} {ms : List Moment}
    (hp : Passes runner h ms h') (hstep : ∀ m ∈ ms, R m.before m.after) :
    (∀ m ∈ ms, R h m.before) ∧ ms.Pairwise fun m m' => R m.after m'.before := by
  induction hp with
  | nil h => exact ⟨List.forall_mem_nil _, .nil⟩
  | cons rest ih =>
    obtain ⟨hfirst, hlater⟩ := List.forall_mem_cons.mp hstep
    obtain ⟨hbefore, hpairs⟩ := ih hlater
    exact ⟨List.forall_mem_cons.mpr ⟨hrefl _, fun m hm => htrans hfirst (hbefore m hm)⟩,
      .cons hbefore hpairs⟩

end Job

end BitcodeWrapper
