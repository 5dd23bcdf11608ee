import BitcodeWrapper.Host.Process
import BitcodeWrapper.Proofs.Outcome

/-! Child processes seen from outside: what a command answers, and what becomes of the machine. -/
namespace BitcodeWrapper
open BitcodeWrapper.Action

/-- Commands start if they can be passed on and a program is found for them. A child changes files only. -/
theorem Action.outcome_spawn (command : List String) (environment : Option Bindings) (h : Host) :
    outcome (spawn command environment) h =
      let env := environment.getD h.environment
      if Host.isPassable command env = true then
        match h.files.startFirst h.here (Host.textLengths command env) command none .noSuchFile
          (Host.programPaths env (command.headD "")) with
        | .error e => (.error (.os (.on e (command.headD ""))), h)
        | .ok shellArgs =>
          let finished := Shell.start Shell.stepLimit h.files h.here h.accounts env shellArgs
          (.ok finished, { h with files := finished.files })
      else (.error .invalidValue, h) := by
  simp only [spawn, outcome_bind, outcome_get]
  by_cases hpass : Host.isPassable command (environment.getD h.environment) = true
  · simp only [hpass, Bool.not_true, Bool.false_eq_true, ↓reduceIte]
    cases h.files.startFirst h.here (Host.textLengths command (environment.getD h.environment)) command none
      .noSuchFile (Host.programPaths (environment.getD h.environment) (command.headD "")) <;> rfl
  · simp only [Bool.not_eq_true] at hpass
    simp only [hpass, Bool.not_false, ↓reduceIte, Bool.false_eq_true]
    rfl

theorem Action.outcome_spawn_of_not_isPassable {command : List String} {environment : Option Bindings} {h : Host}
    (hpass : Host.isPassable command (environment.getD h.environment) = false) :
    outcome (spawn command environment) h = (.error .invalidValue, h) := by
  rw [outcome_spawn]
  exact if_neg (Bool.eq_false_iff.mp hpass)

/-- A command that can be passed on is started, or the operating system refuses it. -/
theorem Action.cases_of_spawn (command : List String) (environment : Option Bindings) (h : Host) :
    (Host.isPassable command (environment.getD h.environment) = false ∧
        outcome (spawn command environment) h = (.error .invalidValue, h)) ∨
      (∃ e, outcome (spawn command environment) h = (.error (.os e), h)) ∨
      ∃ finished, outcome (spawn command environment) h =
        (.ok finished, { h with files := finished.files }) := by
  cases hpass : Host.isPassable command (environment.getD h.environment) with
  | false => exact .inl ⟨rfl, outcome_spawn_of_not_isPassable hpass⟩
  | true =>
    rw [outcome_spawn]
    dsimp only
    rw [if_pos hpass]
    rcases h.files.startFirst h.here _ command none _ _ with e | shellArgs
    · exact .inr (.inl ⟨_, rfl⟩)
    · dsimp only
      generalize Shell.start _ _ _ _ _ shellArgs = finished
      exact .inr (.inr ⟨finished, rfl⟩)

/-- The machine on which a command is about to run. -/
def Runner.announced (command : List String) (h : Host) : Host :=
  h.accept (h.ownRecord .debug (Log.announcementText ++ Text.Wrapped.list command ++ "\nin: " ++
    Location.text h.here))

/-- The reply to a command is what its child printed and how it ended; records are written before it and,
unless it cannot be passed on, after it. -/
theorem Runner.outcome_processes (command : List String) (environment : Option Bindings) (h : Host) :
    outcome (Runner.processes command environment) h =
      match outcome (spawn command environment) (announced command h) with
      | (.ok finished, h) =>
        (.ok ⟨finished.code, finished.both⟩, h.accept (h.ownRecord .debug
          (command.headD "" ++ " returned " ++ toString finished.code)))
      | (.error (.os e), h) =>
        (.error (.os e), h.accept (h.ownRecord .error
          ("Conjunct Failed to execute: " ++ Text.Wrapped.list command)))
      | (.error fault, h) => (.error fault, h) := by
  simp only [processes, announced, outcome_bind, outcome_get, outcome_debug, outcome_tryCatch]
  generalize h.accept _ = k
  rcases outcome (spawn command environment) k with ⟨fault | finished, h'⟩
  · cases fault <;> rfl
  · rfl

/-- A command changes files and leaves records. -/
theorem Runner.keeps_processes {γ : Type} {look : Host → γ} (hrecord : ∀ h r, look (h.accept r) = look h)
    (hfiles : ∀ h files, look { h with files := files } = look h) (command : List String)
    (environment : Option Bindings) : Keeps look (Runner.processes command environment) := by
  intro h
  have hannounced : look (announced command h) = look h := hrecord h _
  rw [outcome_processes]
  obtain ⟨-, hspawn⟩ | ⟨e, hspawn⟩ | ⟨finished, hspawn⟩ :=
    cases_of_spawn command environment (announced command h) <;> rw [hspawn]
  · exact hannounced
  · exact (hrecord _ _).trans hannounced
  · exact (hrecord _ _).trans ((hfiles _ _).trans hannounced)

end BitcodeWrapper
