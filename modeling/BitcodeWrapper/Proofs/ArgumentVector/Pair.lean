import BitcodeWrapper.ArgumentVector

/-! The first occurrence of a flag and the element after it, cut out of an argument vector. A flag that
stands last has no such element, and what is appended later takes its place. -/
namespace BitcodeWrapper.Arguments

/-- What is left without the first occurrence of a flag and the element after it, as far as they exist. -/
inductive DropsPair (flag : String) : Arguments → Arguments → Prop
  | absent {args : Arguments} (notIn : flag ∉ args) : DropsPair flag args args
  | last {before : Arguments} (first : flag ∉ before) :
      DropsPair flag (before ++ [flag]) before
  | pair {before after : Arguments} {value : String} (first : flag ∉ before) :
      DropsPair flag (before ++ flag :: value :: after) (before ++ after)

theorem DropsPair.sublist {flag : String} {args rest : Arguments} (h : DropsPair flag args rest) :
    rest.Sublist args := by
  cases h with
  | absent notIn => exact List.Sublist.refl _
  | last first => exact List.sublist_append_left _ _
  | pair first =>
    exact List.Sublist.append_left
      (((List.Sublist.refl _).cons _).cons _) _

theorem DropsPair.subset {flag : String} {args rest : Arguments} (h : DropsPair flag args rest) :
    rest ⊆ args :=
  h.sublist.subset

/-- A flag that is given once is gone. -/
theorem DropsPair.notMem_of_count_le_one {flag : String} {args rest : Arguments}
    (h : DropsPair flag args rest) (honce : args.count flag ≤ 1) : flag ∉ rest := by
  cases h with
  | absent notIn => exact notIn
  | last first => exact first
  | @pair before after value first =>
    rw [List.count_append, List.count_cons_self] at honce
    have hbehind : flag ∉ value :: after := List.count_eq_zero.mp (by omega)
    exact List.not_mem_append first fun h => hbehind (List.mem_cons_of_mem _ h)

/-- The first occurrence of a flag is the last element. -/
def EndsInFirst (args : Arguments) (flag : String) : Prop :=
  ∃ before, flag ∉ before ∧ args = before ++ [flag]

theorem endsInFirst_iff {args : Arguments} {flag : String} :
    args.EndsInFirst flag ↔ args.getLast? = some flag ∧ flag ∉ args.dropLast := by
  constructor
  · rintro ⟨before, first, rfl⟩
    exact ⟨List.getLast?_concat, by rwa [List.dropLast_concat]⟩
  · rintro ⟨hlast, first⟩
    obtain ⟨before, rfl⟩ := List.getLast?_eq_some_iff.mp hlast
    exact ⟨before, by rwa [List.dropLast_concat] at first, rfl⟩

instance (args : Arguments) (flag : String) : Decidable (args.EndsInFirst flag) :=
  decidable_of_iff _ endsInFirst_iff.symm

theorem withoutFirst_append_of_notMem {flag : String} {withValue : Bool} {before : Arguments}
    (h : flag ∉ before) (after : Arguments) :
    withoutFirst flag withValue (before ++ after) = before ++ withoutFirst flag withValue after := by
  induction before with
  | nil => rfl
  | cons a rest ih =>
    obtain ⟨ha, hrest⟩ := not_or.mp (mt List.mem_cons.mpr h)
    rw [List.cons_append, withoutFirst, if_neg (Ne.symm ha), ih hrest, List.cons_append]

theorem withoutFirst_of_notMem {flag : String} {withValue : Bool} {args : Arguments}
    (h : flag ∉ args) : withoutFirst flag withValue args = args := by
  calc withoutFirst flag withValue args
      = withoutFirst flag withValue (args ++ []) := by rw [List.append_nil]
    _ = args ++ withoutFirst flag withValue [] := withoutFirst_append_of_notMem h []
    _ = args := List.append_nil args

theorem withoutFirst_cons_self (flag : String) (withValue : Bool) (after : Arguments) :
    withoutFirst flag withValue (flag :: after) = after.drop withValue.toNat := by
  rw [withoutFirst, if_pos rfl]
  cases withValue <;> rfl

theorem withoutFirst_append_cons {flag : String} {before : Arguments} (first : flag ∉ before)
    (after : Arguments) :
    withoutFirst flag true (before ++ flag :: after) = before ++ after.drop 1 := by
  rw [withoutFirst_append_of_notMem first, withoutFirst_cons_self, Bool.toNat_true]

/-- The first occurrence of a flag is in one place. -/
theorem append_cons_inj_of_first {flag : String} {before before' after after' : Arguments}
    (first : flag ∉ before) (first' : flag ∉ before')
    (h : before ++ flag :: after = before' ++ flag :: after') : before = before' ∧ after = after' := by
  have hplace := congrArg (List.idxOf flag) h
  rw [List.idxOf_append, if_neg first, List.idxOf_append, if_neg first', List.idxOf_cons_self,
    List.idxOf_cons_self] at hplace
  obtain ⟨rfl, htail⟩ := List.append_inj h (by simpa using hplace)
  exact ⟨rfl, (List.cons.inj htail).2⟩

theorem dropsPair_iff {flag : String} (hflag : flag ≠ "") {args rest : Arguments} :
    DropsPair flag args rest ↔ args.without flag true = rest := by
  rw [without, if_neg hflag]
  constructor
  · intro h
    cases h with
    | absent notIn => exact withoutFirst_of_notMem notIn
    | last first => rw [withoutFirst_append_cons first, List.drop_nil, List.append_nil]
    | pair first => rw [withoutFirst_append_cons first, List.drop_one, List.tail_cons]
  · rintro rfl
    by_cases hmem : flag ∈ args
    · obtain ⟨before, after, rfl, first⟩ := List.eq_append_cons_of_mem hmem
      rw [withoutFirst_append_cons first]
      cases after with
      | nil => simpa using DropsPair.last first
      | cons value after => exact .pair first
    · rw [withoutFirst_of_notMem hmem]
      exact .absent hmem

/-- Taking a pair out of a longer vector: only a flag that ends its part takes from what follows. -/
theorem without_append {flag : String} (hflag : flag ≠ "") {args rest : Arguments}
    (h : DropsPair flag args rest) (tail : Arguments) (htail : flag ∉ tail) :
    (¬ args.EndsInFirst flag → (args ++ tail).without flag true = rest ++ tail) ∧
      (args.EndsInFirst flag → (args ++ tail).without flag true = rest ++ tail.drop 1) := by
  simp only [without, if_neg hflag]
  cases h with
  | absent notIn =>
    have hnot : ¬ args.EndsInFirst flag := by
      rintro ⟨before, -, rfl⟩
      exact notIn (by simp)
    refine ⟨fun _ => withoutFirst_of_notMem ?_, fun h => absurd h hnot⟩
    simp [notIn, htail]
  | last first =>
    refine ⟨fun h => absurd ⟨_, first, rfl⟩ h, fun _ => ?_⟩
    rw [List.append_assoc, List.singleton_append, withoutFirst_append_cons first]
  | @pair before after value first =>
    have hnot : ¬ (before ++ flag :: value :: after).EndsInFirst flag := by
      rintro ⟨before', first', h⟩
      exact nomatch (append_cons_inj_of_first first first' h).2
    refine ⟨fun _ => ?_, fun h => absurd h hnot⟩
    rw [List.append_assoc, List.cons_append, List.cons_append, withoutFirst_append_cons first]
    simp

end BitcodeWrapper.Arguments
