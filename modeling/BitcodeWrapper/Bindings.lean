/-!
Finite maps from names to texts that remember the order in which their names first came. A name that
comes again keeps its place and takes the new text.
-/
namespace BitcodeWrapper

abbrev Bindings (text : Type := String) := List (text × text)

namespace Bindings

def get? (b : Bindings) (name : String) : Option String := b.lookup name

def set {text : Type} [DecidableEq text] (name value : text) : Bindings text → Bindings text
  | [] => [(name, value)]
  | (n, v) :: rest => if n = name then (n, value) :: rest else (n, v) :: set name value rest

def erase (b : Bindings) (name : String) : Bindings :=
  b.filter fun e => e.1 != name

/-- Binds the names of `extra` one after the other, so its last text for a name wins. -/
def update {text : Type} [DecidableEq text] (b extra : Bindings text) : Bindings text :=
  extra.foldl (fun b e => b.set e.1 e.2) b

def ofPairs {text : Type} [DecidableEq text] (pairs : List (text × text)) : Bindings text :=
  update [] pairs

def sorted (b : Bindings) : Bindings :=
  b.mergeSort fun x y => x.1 ≤ y.1

@[simp] theorem get?_nil (name : String) : get? [] name = none := rfl

theorem get?_set (b : Bindings) (name value x : String) :
    (b.set name value).get? x = if x = name then some value else b.get? x := by
  induction b with
  | nil =>
    by_cases h : x = name
    · simp [set, get?, h]
    · simp [set, get?, h, List.lookup_cons, beq_eq_false_iff_ne.mpr h]
  | cons e rest ih =>
    obtain ⟨n, v⟩ := e
    simp only [get?] at ih ⊢
    by_cases hn : n = name <;> by_cases hx : x = n
    · subst hn; subst hx; simp [set]
    · subst hn; simp [set, List.lookup_cons, hx, beq_eq_false_iff_ne.mpr hx]
    · subst hx; simp [set, hn]
    · simp [set, hn, List.lookup_cons, beq_eq_false_iff_ne.mpr hx, ih]

theorem get?_erase (b : Bindings) (name x : String) :
    (b.erase name).get? x = if x = name then none else b.get? x := by
  induction b with
  | nil => simp [erase, get?]
  | cons e rest ih =>
    obtain ⟨n, v⟩ := e
    simp only [get?, erase] at ih ⊢
    by_cases hn : n = name <;> by_cases hx : x = n
    · subst hn; subst hx; simpa using ih
    · subst hn; simpa [List.lookup_cons, hx, beq_eq_false_iff_ne.mpr hx] using ih
    · subst hx; simp [hn]
    · simp [hn, List.lookup_cons, beq_eq_false_iff_ne.mpr hx, ih]

end Bindings

end BitcodeWrapper
