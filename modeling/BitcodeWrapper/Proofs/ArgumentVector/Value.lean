import BitcodeWrapper.Proofs.ArgumentVector.Pair

/-! The value of a flag, which is the element after its first occurrence, and what the removal of another
flag does to such a pair: nothing, unless the other flag ends right in front of it. -/
namespace BitcodeWrapper.Arguments

variable {flag key value : String} {withValue : Bool} {before args rest : Arguments}

theorem valueAfter_append_of_notMem (h : flag ∉ before) (after : Arguments) :
    valueAfter flag (before ++ after) = valueAfter flag after := by
  induction before with
  | nil => rfl
  | cons a rest ih =>
    obtain ⟨ha, hrest⟩ := not_or.mp (mt List.mem_cons.mpr h)
    rw [List.cons_append, valueAfter, if_neg (Ne.symm ha), ih hrest]

theorem valueAfter_of_notMem (h : flag ∉ before) : valueAfter flag before = "" := by
  have happend := valueAfter_append_of_notMem h []
  rwa [List.append_nil] at happend

theorem valueAfter_append_pair (h : flag ∉ before) (value : String) (after : Arguments) :
    valueAfter flag (before ++ flag :: value :: after) = value := by
  rw [valueAfter_append_of_notMem h, valueAfter, if_pos rfl, List.headD_cons]

theorem valueAfter_concat (h : flag ∉ before) : valueAfter flag (before ++ [flag]) = "" := by
  rw [valueAfter_append_of_notMem h, valueAfter, if_pos rfl]
  rfl

theorem valueAfter_mem (h : valueAfter flag args ≠ "") : valueAfter flag args ∈ args := by
  by_cases hmem : flag ∈ args
  · obtain ⟨before, after, rfl, first⟩ := List.eq_append_cons_of_mem hmem
    cases after with
    | nil => exact absurd (valueAfter_concat first) h
    | cons value after =>
      rw [valueAfter_append_pair first]
      simp
  · exact absurd (valueAfter_of_notMem hmem) h

/-- What comes after an element is of no consequence if the flag is neither there nor that element. -/
theorem valueAfter_append_cons_of_notMem {a : String} {after : Arguments} (h : flag ∉ a :: after)
    (before : Arguments) :
    valueAfter flag (before ++ a :: after) = valueAfter flag (before ++ [a]) := by
  induction before with
  | nil =>
    have ha : flag ∉ [a] := fun hmem => h (List.mem_cons.mpr (.inl (List.mem_singleton.mp hmem)))
    rw [List.nil_append, List.nil_append, valueAfter_of_notMem h, valueAfter_of_notMem ha]
  | cons b rest ih =>
    rw [List.cons_append, List.cons_append, valueAfter, valueAfter, ih]
    cases rest <;> rfl

theorem withoutFirst_subset (flag : String) (withValue : Bool) (args : Arguments) :
    withoutFirst flag withValue args ⊆ args := by
  induction args with
  | nil => exact List.Subset.refl _
  | cons a rest ih =>
    rw [withoutFirst]
    split
    · split
      · exact fun _ hx => List.mem_cons_of_mem a (List.mem_of_mem_drop hx)
      · exact List.subset_cons_self a rest
    · exact List.cons_subset_cons a ih

theorem withoutFirst_append_of_mem (h : flag ∈ before) (hends : ¬ before.EndsInFirst flag)
    (after : Arguments) :
    withoutFirst flag true (before ++ after) = withoutFirst flag true before ++ after := by
  obtain ⟨front, back, rfl, first⟩ := List.eq_append_cons_of_mem h
  cases back with
  | nil => exact (hends ⟨front, first, rfl⟩).elim
  | cons value back =>
    rw [List.append_assoc, List.cons_append, withoutFirst_append_cons first,
      withoutFirst_append_cons first]
    simp

/-- A pair is left alone by the removal of a flag that does not end in front of it. -/
theorem withoutFirst_append_pair (hkey : key ≠ flag) (hvalue : value ≠ flag)
    (hends : ¬ before.EndsInFirst flag) (after : Arguments) :
    withoutFirst flag true (before ++ key :: value :: after) =
      withoutFirst flag true before ++ key :: value ::
        (if flag ∈ before then after else withoutFirst flag true after) := by
  by_cases hmem : flag ∈ before
  · rw [withoutFirst_append_of_mem hmem hends, if_pos hmem]
  · rw [withoutFirst_append_of_notMem hmem, withoutFirst_of_notMem hmem, if_neg hmem, withoutFirst,
      if_neg hkey, withoutFirst, if_neg hvalue]

/-- Of the elements that are there once, a pair takes its flag and the value of that. -/
theorem DropsPair.mem_iff (h : DropsPair flag args rest) {a : String} (hflag : a ≠ flag) (hnonempty : a ≠ "")
    (honce : args.count a = 1) : a ∈ rest ↔ valueAfter flag args ≠ a := by
  have hmem : a ∈ args := List.count_pos_iff.mp (by omega)
  cases h with
  | absent notIn =>
    rw [valueAfter_of_notMem notIn]
    exact iff_of_true hmem (Ne.symm hnonempty)
  | last first =>
    rw [valueAfter_concat first]
    exact iff_of_true (by simpa [hflag] using hmem) (Ne.symm hnonempty)
  | @pair before after value first =>
    rw [valueAfter_append_pair first]
    constructor
    · rintro hrest rfl
      rw [List.count_append, List.count_cons_of_ne (Ne.symm hflag), List.count_cons_self] at honce
      have hnone : (before ++ after).count value = 0 := by rw [List.count_append]; omega
      exact List.count_eq_zero.mp hnone hrest
    · intro hvalue
      simpa [hflag, Ne.symm hvalue] using hmem

/-- A flag that does not end a part has its value there. -/
theorem valueAfter_append_of_mem (hmem : flag ∈ before) (hends : ¬ before.EndsInFirst flag)
    (after : Arguments) : valueAfter flag (before ++ after) = valueAfter flag before := by
  obtain ⟨front, back, rfl, first⟩ := List.eq_append_cons_of_mem hmem
  cases back with
  | nil => exact (hends ⟨front, first, rfl⟩).elim
  | cons value back =>
    rw [List.append_assoc, List.cons_append, List.cons_append, valueAfter_append_pair first,
      valueAfter_append_pair first]

theorem not_endsInFirst_of_valueAfter_ne {after : Arguments}
    (hnext : valueAfter flag (before ++ key :: after) ≠ key) : ¬ before.EndsInFirst flag := by
  rintro ⟨front, first, rfl⟩
  rw [List.append_assoc, List.singleton_append, valueAfter_append_pair first] at hnext
  exact hnext rfl

/-- A flag that is there once keeps its value, unless the pair that goes takes the flag or begins with
that value. -/
theorem DropsPair.valueAfter_eq (h : DropsPair key args rest) (hflag : flag ≠ "") (hne : flag ≠ key)
    (honce : args.count flag = 1) (hnext : valueAfter flag args ≠ key) :
    valueAfter flag rest = if valueAfter key args = flag then "" else valueAfter flag args := by
  cases h with
  | absent notIn => rw [valueAfter_of_notMem notIn, if_neg (Ne.symm hflag)]
  | last first =>
    have hmem : flag ∈ rest := by
      have hcount : 0 < (rest ++ [key]).count flag := by omega
      simpa [hne] using List.count_pos_iff.mp hcount
    rw [valueAfter_concat first, if_neg (Ne.symm hflag),
      valueAfter_append_of_mem hmem (not_endsInFirst_of_valueAfter_ne hnext)]
  | @pair before after value first =>
    rw [valueAfter_append_pair first]
    rw [List.count_append, List.count_cons_of_ne (Ne.symm hne), List.count_cons] at honce
    by_cases hvalue : value = flag
    · have hcount : (before ++ after).count flag = 0 := by
        rw [if_pos (by simpa using hvalue)] at honce
        rw [List.count_append]
        omega
      rw [if_pos hvalue, valueAfter_of_notMem (List.count_eq_zero.mp hcount)]
    · rw [if_neg hvalue]
      by_cases hmem : flag ∈ before
      · rw [valueAfter_append_of_mem hmem (not_endsInFirst_of_valueAfter_ne hnext),
          valueAfter_append_of_mem hmem (not_endsInFirst_of_valueAfter_ne hnext)]
      · rw [valueAfter_append_of_notMem hmem, valueAfter_append_of_notMem hmem, valueAfter,
          if_neg (Ne.symm hne), valueAfter, if_neg hvalue]

/-- The last occurrence of a flag is followed by this value. -/
def LastValue (args : Arguments) (flag value : String) : Prop :=
  ∃ before after, args = before ++ flag :: value :: after ∧ flag ∉ value :: after

theorem lastValue_of_suffix {args after : Arguments} (hsuffix : flag :: value :: after <:+ args)
    (hvalue : flag ≠ value) (hafter : flag ∉ after) : LastValue args flag value := by
  obtain ⟨before, rfl⟩ := hsuffix
  exact ⟨before, after, rfl, List.not_mem_cons_of_ne_of_not_mem hvalue hafter⟩

theorem adding_of_ne {args : Arguments} (hflag : flag ≠ "") (hvalue : value ≠ "") :
    args.adding flag value = args ++ [flag, value] := by
  rw [adding, if_neg hflag, if_neg hvalue]

theorem adding_empty {args : Arguments} (hflag : flag ≠ "") : args.adding flag "" = args ++ [flag] := by
  rw [adding, if_neg hflag, if_pos rfl]

end BitcodeWrapper.Arguments
