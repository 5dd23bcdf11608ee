import BitcodeWrapper.Proofs.Job.Calls

/-! Commands that are launched one after the other until one of them fails. -/
namespace BitcodeWrapper

theorem exitCodeFor_ne_zero {rc : Int} (h : rc ≠ 0) : exitCodeFor (some rc) ≠ 0 := by
  simp only [exitCodeFor]
  split <;> omega

theorem exitCodeFor_of_signal {n : Int} (h : 0 < n) : exitCodeFor (some (-n)) = 128 + n := by
  simp only [exitCodeFor]
  rw [if_pos (by omega)]
  omega

namespace Job

/-- A command that fails decides the exit code. -/
inductive Call.FailsWith (call : Call) : Int → Prop
  | refused (h : call.IsRefused) : call.FailsWith internalExitCode
  | exited {rc : Int} (nonzero : rc ≠ 0) (h : call.Exits rc) : call.FailsWith (exitCodeFor (some rc))

namespace Call
variable {call : Call} {a b : Int}

theorem Exits.unique (ha : call.Exits a) (hb : call.Exits b) : a = b := by
  obtain ⟨output, ha⟩ := ha
  obtain ⟨output', hb⟩ := hb
  rw [ha] at hb
  cases hb
  rfl

theorem Exits.not_isRefused (h : call.Exits a) : ¬ call.IsRefused := by
  rintro ⟨e, he⟩
  obtain ⟨output, h⟩ := h
  rw [h] at he
  exact nomatch he

theorem Exits.not_failsWith (h : call.Exits 0) : ¬ call.FailsWith a := by
  rintro (hr | ⟨nonzero, hx⟩)
  · exact h.not_isRefused hr
  · exact nonzero (hx.unique h)

theorem FailsWith.unique (ha : call.FailsWith a) (hb : call.FailsWith b) : a = b := by
  rcases ha with hr | ⟨-, hx⟩ <;> rcases hb with hr' | ⟨-, hx'⟩
  · rfl
  · exact (hx'.not_isRefused hr).elim
  · exact (hx.not_isRefused hr').elim
  · rw [hx.unique hx']

theorem FailsWith.ne_zero (h : call.FailsWith a) : a ≠ 0 := by
  rcases h with - | ⟨nonzero, -⟩
  · decide
  · exact exitCodeFor_ne_zero nonzero

end Call

/-- The commands are launched in order. One that fails is the last and decides the exit code; if none
does, the exit code is `ending`. -/
inductive Chain (ending : Int) : List (List String) → List Call → Int → Prop
  | ended : Chain ending [] [] ending
  | stopped {call : Call} {commands : List (List String)} {code : Int}
      (fails : call.FailsWith code) : Chain ending (call.command :: commands) [call] code
  | next {call : Call} {commands : List (List String)} {calls : List Call} {code : Int}
      (exits : call.Exits 0) (rest : Chain ending commands calls code) :
      Chain ending (call.command :: commands) (call :: calls) code

/-- The `k`-th command was launched and returned zero. -/
def ReturnsZero (calls : List Call) (k : Nat) : Prop :=
  ∃ call, calls[k]? = some call ∧ call.Exits 0

namespace Chain
variable {ending code : Int} {commands : List (List String)} {calls : List Call}

theorem isPrefix_commands (h : Chain ending commands calls code) :
    calls.map (·.command) <+: commands := by
  induction h with
  | ended => exact List.nil_prefix
  | stopped fails => exact List.cons_prefix_cons.mpr ⟨rfl, List.nil_prefix⟩
  | next exits rest ih => exact List.cons_prefix_cons.mpr ⟨rfl, ih⟩

/-- A command is launched exactly if all those before it have returned zero. -/
theorem lt_length_iff (h : Chain ending commands calls code) (k : Nat) :
    k < calls.length ↔ k < commands.length ∧ ∀ j < k, ReturnsZero calls j := by
  induction h generalizing k with
  | ended => simp
  | stopped fails =>
    cases k with
    | zero => simp
    | succ k =>
      refine iff_of_false (by simp) ?_
      rintro ⟨-, hzero⟩
      obtain ⟨_, ⟨⟩, exits⟩ := hzero 0 k.succ_pos
      exact exits.not_failsWith fails
  | @next call commands calls code exits rest ih =>
    cases k with
    | zero => simp
    | succ k =>
      have hfirst : ReturnsZero (call :: calls) 0 := ⟨call, rfl, exits⟩
      have hlater : ∀ j, ReturnsZero (call :: calls) (j + 1) ↔ ReturnsZero calls j :=
        fun _ => Iff.rfl
      simp only [List.length_cons, Nat.add_lt_add_iff_right, ih k, Nat.forall_lt_succ_left, hfirst,
        hlater, true_and]

/-- A command that fails decides the exit code of the whole chain. -/
theorem code_eq (h : Chain ending commands calls code) {call : Call} {code' : Int}
    (hmem : call ∈ calls) (fails : call.FailsWith code') : code = code' := by
  induction h with
  | ended => exact nomatch hmem
  | stopped fails' =>
    obtain rfl := List.mem_singleton.mp hmem
    exact fails'.unique fails
  | next exits rest ih =>
    rcases List.mem_cons.mp hmem with rfl | hmem
    · exact (exits.not_failsWith fails).elim
    · exact ih hmem

/-- Either the last command fails, or all were launched and returned zero. -/
theorem fails_or_ends (h : Chain ending commands calls code) :
    (∃ call, calls.getLast? = some call ∧ call.FailsWith code) ∨
      calls.length = commands.length ∧ (∀ call ∈ calls, call.Exits 0) ∧ code = ending := by
  induction h with
  | ended => exact .inr ⟨rfl, List.forall_mem_nil _, rfl⟩
  | stopped fails => exact .inl ⟨_, rfl, fails⟩
  | next exits rest ih =>
    obtain ⟨call, hlast, fails⟩ | ⟨hlength, hall, hcode⟩ := ih
    · exact .inl ⟨call, by rw [List.getLast?_cons, hlast]; rfl, fails⟩
    · exact .inr ⟨congrArg (· + 1) hlength, List.forall_mem_cons.mpr ⟨exits, hall⟩, hcode⟩

end Chain

end Job

end BitcodeWrapper
