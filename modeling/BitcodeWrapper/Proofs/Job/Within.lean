import BitcodeWrapper.Proofs.Job.Events

/-! Jobs that keep to some steps as long as these are answered as they should be. Other answers than those
expected, and what a job does after them, are of no interest; a refusal is always to be expected. -/
namespace BitcodeWrapper.Job

variable {α β : Type}

/-- The steps of a job have `P` as long as their answers have `Q`, and then its value has `R`. -/
inductive Within (P : Step → Prop) (Q : (s : Step) → s.Answer → Prop) (R : α → Prop) : Job α → Prop
  | done {a : α} (value : R a) : Within P Q R (done a)
  | failed {fault : Fault} : Within P Q R (failed fault)
  | step {s : Step} {next : Except Fault s.Answer → Job α} (here : P s)
      (rest : ∀ answer, (∀ a, answer = .ok a → Q s a) → Within P Q R (next answer)) :
      Within P Q R (step s next)

variable {P : Step → Prop} {Q : (s : Step) → s.Answer → Prop} {R : α → Prop} {R' : β → Prop}

theorem within_pure {a : α} (ha : R a) : Within P Q R (pure a) := .done ha

theorem within_ofExcept {x : Except Fault α} (h : ∀ a, x = .ok a → R a) : Within P Q R (ofExcept x) := by
  cases x with
  | ok a => exact .done (h a rfl)
  | error fault => exact .failed

/-- A step that is asked for is answered as it should be. -/
theorem within_ask {s : Step} (hs : P s) : Within P Q (Q s) (ask s) :=
  .step hs fun _ hanswer => within_ofExcept hanswer

theorem within_bind {x : Job α} {f : α → Job β} (hx : Within P Q R x)
    (hf : ∀ a, R a → Within P Q R' (f a)) : Within P Q R' (x >>= f) := by
  change Within P Q R' (bind x f)
  induction hx with
  | done value => exact hf _ value
  | failed => exact .failed
  | step here rest ih => exact .step here ih

/-- What holds of the value of a job holds of the result that it becomes. -/
theorem within_attempt {x : Job α} (hx : Within P Q R x) :
    Within P Q (fun r => ∀ a, r = .ok a → R a) (attempt x) := by
  induction hx with
  | @done a value =>
    refine .done fun a' ha => ?_
    rwa [← Except.ok.inj ha]
  | failed => exact .done nofun
  | step here rest ih => exact .step here ih

/-- Steps that are taken whatever was answered are taken. -/
theorem Only.within {x : Job α} (hx : Only P x) : Within P Q (fun _ => True) x := by
  induction x with
  | done a => exact .done trivial
  | failed fault => exact .failed
  | step s next ih => exact .step hx.1 fun answer _ => ih answer (hx.2 answer)

end BitcodeWrapper.Job
