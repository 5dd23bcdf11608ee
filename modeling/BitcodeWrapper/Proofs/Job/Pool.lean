import BitcodeWrapper.Proofs.Job.History
import Mathlib.Data.List.Forall2
import Mathlib.Logic.Function.Iterate

/-! Several jobs that take turns on the same files. Each has its own runner and its own side of the machine; a
schedule says whose turn it is, in whatever order. -/
namespace BitcodeWrapper.Job
open BitcodeWrapper.Action

variable {α : Type}

/-- A job and its machine after one more step, if there is one to take. -/
def proceed (runner : Runner) (state : Job α × Host) : Job α × Host :=
  (advance runner state.1 state.2).getD state

theorem proceed_step (runner : Runner) (s : Step) (next : Except Fault s.Answer → Job α) (h : Host) :
    proceed runner (step s next, h) = (next (s.outcome runner h).1, (s.outcome runner h).2) := by
  simp only [proceed, advance, Step.outcome, Action.outcome]
  cases (s.perform runner).run h <;> rfl

theorem proceed_ofExcept (runner : Runner) (r : Except Fault α) (h : Host) :
    proceed runner (ofExcept r, h) = (ofExcept r, h) := by
  cases r <;> rfl

/-- After a step the history of a job is what is left of it. -/
theorem history_proceed (runner : Runner) (j : Job α) (h : Host) :
    (proceed runner (j, h)).1.history runner (proceed runner (j, h)).2 = (j.history runner h).drop 1 := by
  cases j with
  | done a => rfl
  | failed fault => rfl
  | step s next =>
    rw [proceed_step]
    rfl

/-- Enough steps lead to the end. -/
theorem proceed_iterate (runner : Runner) {j : Job α} {h : Host} {n : Nat}
    (hn : (j.history runner h).length ≤ n) :
    (proceed runner)^[n] (j, h) =
      (ofExcept (outcome (j.run runner) h).1, (outcome (j.run runner) h).2) := by
  induction j generalizing h n with
  | done a => exact Function.iterate_fixed (proceed_ofExcept runner (.ok a) h) n
  | failed fault => exact Function.iterate_fixed (proceed_ofExcept runner (.error fault) h) n
  | step s next ih =>
    cases n with
    | zero => exact absurd hn (Nat.not_succ_le_zero _)
    | succ n =>
      rw [Function.iterate_succ_apply, proceed_step, outcome_run_step]
      exact ih _ (Nat.le_of_succ_le_succ hn)

/-- Jobs that share their files. -/
structure Pool (ι α : Type) where
  files : Files
  jobs : ι → Job α
  hosts : ι → Host

namespace Pool

variable {ι : Type} [DecidableEq ι] (runners : ι → Runner)

/-- The machine as it is to one of them. -/
def machine (p : Pool ι α) (i : ι) : Host := { p.hosts i with files := p.files }

def turn (p : Pool ι α) (i : ι) : Pool ι α :=
  let state := proceed (runners i) (p.jobs i, p.machine i)
  ⟨state.2.files, Function.update p.jobs i state.1, Function.update p.hosts i state.2⟩

def run (p : Pool ι α) (schedule : List ι) : Pool ι α := schedule.foldl (turn runners) p

/-- The moment of the next step of a job, if it has one. -/
def nextMoment (p : Pool ι α) (i : ι) : List Moment :=
  ((p.jobs i).history (runners i) (p.machine i)).take 1

/-- The moments of one of the jobs while all of them take their turns. -/
def moments (i : ι) : Pool ι α → List ι → List Moment
  | _, [] => []
  | p, k :: schedule =>
    (if k = i then p.nextMoment runners i else []) ++ moments i (p.turn runners k) schedule

variable {runners} {p : Pool ι α} {i k : ι}

@[simp] theorem jobs_turn : (p.turn runners i).jobs i = (proceed (runners i) (p.jobs i, p.machine i)).1 :=
  Function.update_self ..

@[simp] theorem machine_turn :
    (p.turn runners i).machine i = (proceed (runners i) (p.jobs i, p.machine i)).2 := by
  simp only [machine, turn, Function.update_self]

theorem jobs_turn_of_ne (h : i ≠ k) : (p.turn runners k).jobs i = p.jobs i :=
  Function.update_of_ne h ..

theorem machine_turn_of_ne (h : i ≠ k) :
    (p.turn runners k).machine i = { p.machine i with files := (p.turn runners k).files } := by
  simp only [machine, turn, Function.update_of_ne h]

theorem files_turn : (p.turn runners i).files = (proceed (runners i) (p.jobs i, p.machine i)).2.files := rfl

end Pool

end BitcodeWrapper.Job
