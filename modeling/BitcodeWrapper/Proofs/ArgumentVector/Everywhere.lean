import Mathlib.Data.List.DropRight
import BitcodeWrapper.Proofs.ArgumentVector.Pair

/-! A flag taken out everywhere, by a loop that looks for it from the left end again in every turn. No turn
changes what one pass from left to right gives, so that the loop ends in that. Where values go as well, the
flags of a row are by turns a flag and its value. -/
namespace BitcodeWrapper.Arguments

/-- The loop on an argument vector: in how many turns, each of which takes the first occurrence out, it
comes to an end, and what is left there. -/
inductive Loops (flag : String) (withValue : Bool) : Arguments → Nat → Arguments → Prop
  | done {args : Arguments} (absent : flag ∉ args) : Loops flag withValue args 0 args
  | turn {args rest : Arguments} {turns : Nat} (given : flag ∈ args)
      (onward : Loops flag withValue (args.without flag withValue) turns rest) :
      Loops flag withValue args (turns + 1) rest

variable {flag a : String} {withValue : Bool} {before args rest : Arguments} {turns : Nat}

theorem onePass_cons_self (flag : String) (withValue : Bool) (after : Arguments) :
    onePass flag withValue (flag :: after) = onePass flag withValue (after.drop withValue.toNat) := by
  cases withValue <;> cases after <;> simp [onePass]

theorem onePass_cons_of_ne (ha : a ≠ flag) (after : Arguments) :
    onePass flag withValue (a :: after) = a :: onePass flag withValue after := by
  rw [onePass.eq_def]
  exact if_neg ha

theorem onePass_append_of_notMem (h : flag ∉ before) (after : Arguments) :
    onePass flag withValue (before ++ after) = before ++ onePass flag withValue after := by
  induction before with
  | nil => rfl
  | cons a rest ih =>
    obtain ⟨ha, hrest⟩ := not_or.mp (mt List.mem_cons.mpr h)
    rw [List.cons_append, onePass_cons_of_ne (Ne.symm ha), ih hrest, List.cons_append]

/-- What stands before the first occurrence has been passed already, and behind it the pass goes on with
what the turn leaves. -/
theorem onePass_withoutFirst (given : flag ∈ args) :
    onePass flag withValue (withoutFirst flag withValue args) = onePass flag withValue args := by
  obtain ⟨before, after, rfl, first⟩ := List.eq_append_cons_of_mem given
  rw [withoutFirst_append_of_notMem first, withoutFirst_cons_self, onePass_append_of_notMem first,
    onePass_append_of_notMem first, onePass_cons_self]

theorem count_withoutFirst_lt (given : flag ∈ args) :
    (withoutFirst flag withValue args).count flag < args.count flag := by
  obtain ⟨before, after, rfl, first⟩ := List.eq_append_cons_of_mem given
  have hdrop : (after.drop withValue.toNat).count flag ≤ after.count flag :=
    (List.drop_sublist _ _).count_le flag
  rw [withoutFirst_append_of_notMem first, withoutFirst_cons_self, List.count_append,
    List.count_append, List.count_cons_self]
  omega

theorem Loops.notMem (h : Loops flag withValue args turns rest) : flag ∉ rest := by
  induction h with
  | done absent => exact absent
  | turn given onward ih => exact ih

theorem Loops.onePass_eq (hflag : flag ≠ "") (h : Loops flag withValue args turns rest) :
    onePass flag withValue args = rest := by
  induction h with
  | @done args absent =>
    calc onePass flag withValue args
        = onePass flag withValue (args ++ []) := by rw [List.append_nil]
      _ = args ++ onePass flag withValue [] := onePass_append_of_notMem absent []
      _ = args := List.append_nil args
  | turn given onward ih => rw [← ih, without, if_neg hflag, onePass_withoutFirst given]

/-- Each turn takes at least one occurrence of the flag. -/
theorem exists_loops (hflag : flag ≠ "") (withValue : Bool) (args : Arguments) :
    ∃ turns ≤ args.count flag, Loops flag withValue args turns (args.withoutEvery flag withValue) := by
  rw [withoutEvery, if_neg hflag]
  induction args using withoutEveryFrom.induct flag withValue with
  | case1 args given ih =>
    obtain ⟨turns, hturns, honward⟩ := ih
    have hfewer : (withoutFirst flag withValue args).count flag < args.count flag :=
      count_withoutFirst_lt given
    refine ⟨turns + 1, by omega, .turn given ?_⟩
    rw [withoutEveryFrom, dif_pos given, without, if_neg hflag]
    exact honward
  | case2 args absent =>
    rw [withoutEveryFrom, dif_neg absent]
    exact ⟨0, Nat.zero_le _, .done absent⟩

theorem withoutEvery_eq_onePass (hflag : flag ≠ "") (withValue : Bool) (args : Arguments) :
    args.withoutEvery flag withValue = onePass flag withValue args := by
  obtain ⟨turns, -, hloops⟩ := exists_loops hflag withValue args
  exact (hloops.onePass_eq hflag).symm

theorem onePass_false_eq_filter (flag : String) (args : Arguments) :
    onePass flag false args = args.filter (· ≠ flag) := by
  induction args with
  | nil => rfl
  | cons a rest ih =>
    by_cases ha : a = flag
    · subst ha
      rw [onePass_cons_self, List.filter_cons_of_neg (by simp)]
      exact ih
    · rw [onePass_cons_of_ne ha, List.filter_cons_of_pos (by simpa using ha), ih]

theorem withoutEvery_eq_filter (hflag : flag ≠ "") (args : Arguments) :
    args.withoutEvery flag false = args.filter (· ≠ flag) := by
  rw [withoutEvery_eq_onePass hflag, onePass_false_eq_filter]

theorem withoutEvery_empty (withValue : Bool) (args : Arguments) :
    args.withoutEvery "" withValue = args :=
  if_pos rfl

theorem withoutEvery_of_notMem (h : flag ∉ args) (withValue : Bool) :
    args.withoutEvery flag withValue = args := by
  rw [withoutEvery, withoutEveryFrom, dif_neg h, ite_self]

theorem withoutEvery_comm (flag other : String) (args : Arguments) :
    (args.withoutEvery flag false).withoutEvery other false =
      (args.withoutEvery other false).withoutEvery flag false := by
  by_cases hflag : flag = ""
  · rw [hflag, withoutEvery_empty, withoutEvery_empty]
  by_cases hother : other = ""
  · rw [hother, withoutEvery_empty, withoutEvery_empty]
  rw [withoutEvery_eq_filter hflag, withoutEvery_eq_filter hother, withoutEvery_eq_filter hother,
    withoutEvery_eq_filter hflag, List.filter_filter, List.filter_filter]
  exact List.filter_congr fun a _ => Bool.and_comm _ _

/-- How many copies of the flag stand in a row at the end. -/
def rowAtEnd (flag : String) (args : Arguments) : Nat := (args.rtakeWhile (· = flag)).length

theorem rowAtEnd_nil (flag : String) : rowAtEnd flag [] = 0 := rfl

theorem rowAtEnd_concat (flag : String) (args : Arguments) (a : String) :
    rowAtEnd flag (args ++ [a]) = if a = flag then rowAtEnd flag args + 1 else 0 := by
  rw [rowAtEnd, List.rtakeWhile_concat]
  by_cases ha : a = flag
  · rw [if_pos (decide_eq_true ha), if_pos ha, List.length_append]
    rfl
  · rw [if_neg (by simpa using ha), if_neg ha, List.length_nil]

theorem rowAtEnd_singleton (flag : String) : rowAtEnd flag [flag] = 1 :=
  (rowAtEnd_concat flag [] flag).trans (if_pos rfl)

theorem rowAtEnd_cons_of_ne (ha : a ≠ flag) (args : Arguments) :
    rowAtEnd flag (a :: args) = rowAtEnd flag args := by
  induction args using List.reverseRecOn with
  | nil => exact (rowAtEnd_concat flag [] a).trans (if_neg ha)
  | append_singleton args b ih => rw [← List.cons_append, rowAtEnd_concat, rowAtEnd_concat, ih]

/-- A flag and its value in front leave a row odd or even as it is. -/
theorem rowAtEnd_cons_pair_mod (flag value : String) (args : Arguments) :
    rowAtEnd flag (flag :: value :: args) % 2 = rowAtEnd flag args % 2 := by
  induction args using List.reverseRecOn with
  | nil =>
    have hpair : rowAtEnd flag [flag, value] = if value = flag then rowAtEnd flag [flag] + 1 else 0 :=
      rowAtEnd_concat flag [flag] value
    rw [hpair, rowAtEnd_singleton, rowAtEnd_nil]
    split <;> rfl
  | append_singleton args b ih =>
    rw [← List.cons_append, ← List.cons_append, rowAtEnd_concat, rowAtEnd_concat]
    split
    · omega
    · rfl

/-- What follows is the value of a flag: in a row of flags every other one is the value of the one before,
so that a row of odd length ends in a flag. -/
def Awaits (flag : String) (withValue : Bool) (before : Arguments) : Prop :=
  withValue = true ∧ rowAtEnd flag before % 2 = 1

instance (before : Arguments) : Decidable (Awaits flag withValue before) :=
  inferInstanceAs (Decidable (_ ∧ _))

theorem not_awaits_false (flag : String) (before : Arguments) : ¬ Awaits flag false before :=
  fun h => Bool.false_ne_true h.1

theorem awaits_cons_of_ne (ha : a ≠ flag) (before : Arguments) :
    Awaits flag withValue (a :: before) ↔ Awaits flag withValue before := by
  rw [Awaits, rowAtEnd_cons_of_ne ha, Awaits]

theorem awaits_cons_pair (flag value : String) (withValue : Bool) (before : Arguments) :
    Awaits flag withValue (flag :: value :: before) ↔ Awaits flag withValue before := by
  rw [Awaits, rowAtEnd_cons_pair_mod, Awaits]

/-- In two parts, the pass takes the first element of the second one as a value if the first one still
awaits that. -/
theorem onePass_append (before after : Arguments) :
    onePass flag withValue (before ++ after) = onePass flag withValue before ++
      onePass flag withValue (if Awaits flag withValue before then after.drop 1 else after) := by
  fun_induction onePass flag withValue before with
  | case1 =>
    rw [if_neg (by simp [Awaits, rowAtEnd_nil])]
    rfl
  | case2 value rest hvalue ih =>
    subst hvalue
    rw [List.cons_append, List.cons_append, onePass_cons_self, Bool.toNat_true, List.drop_one,
      List.tail_cons]
    simpa only [awaits_cons_pair] using ih
  | case3 rest hrest ih =>
    -- no value goes within this part: none is asked for, or the flag stands last in it
    cases withValue with
    | false =>
      simp only [not_awaits_false, if_false] at ih ⊢
      rw [List.cons_append, onePass_cons_self, Bool.toNat_false, List.drop_zero, ih]
    | true =>
      cases rest with
      | nil =>
        have hawaits : Awaits flag true [flag] := ⟨rfl, by rw [rowAtEnd_singleton]⟩
        rw [if_pos hawaits, List.singleton_append, onePass_cons_self]
        rfl
      | cons value rest => exact (hrest value rest rfl rfl).elim
  | case4 b rest hb ih =>
    simp only [awaits_cons_of_ne hb, List.cons_append, onePass_cons_of_ne hb, ih]

theorem withoutEvery_append (flag : String) (args more : Arguments) :
    (args ++ more).withoutEvery flag false = args.withoutEvery flag false ++ more.withoutEvery flag false := by
  by_cases hflag : flag = ""
  · rw [hflag, withoutEvery_empty, withoutEvery_empty, withoutEvery_empty]
  · rw [withoutEvery_eq_onePass hflag, withoutEvery_eq_onePass hflag, withoutEvery_eq_onePass hflag,
      onePass_append, if_neg (not_awaits_false flag args)]

/-- An element that stays, by what stands before it. -/
def Remains (flag : String) (withValue : Bool) (before : Arguments) (a : String) : Prop :=
  a ≠ flag ∧ ¬ Awaits flag withValue before

instance (before : Arguments) (a : String) : Decidable (Remains flag withValue before a) :=
  inferInstanceAs (Decidable (_ ∧ _))

theorem onePass_concat (flag : String) (withValue : Bool) (before : Arguments) (a : String) :
    onePass flag withValue (before ++ [a]) =
      onePass flag withValue before ++ if Remains flag withValue before a then [a] else [] := by
  rw [onePass_append]
  by_cases hawaits : Awaits flag withValue before
  · rw [if_pos hawaits, if_neg (fun h => h.2 hawaits)]
    rfl
  · rw [if_neg hawaits]
    by_cases ha : a = flag
    · rw [ha, onePass_cons_self, List.drop_nil, if_neg (fun h => h.1 rfl)]
      rfl
    · rw [onePass_cons_of_ne ha, if_pos ⟨ha, hawaits⟩]
      rfl

/-- The elements that stay, from left to right. -/
def remaining (flag : String) (withValue : Bool) (args : Arguments) : Arguments :=
  (args.zipIdx.filter fun p => Remains flag withValue (args.take p.2) p.1).map Prod.fst

theorem remaining_concat (flag : String) (withValue : Bool) (before : Arguments) (a : String) :
    remaining flag withValue (before ++ [a]) =
      remaining flag withValue before ++ if Remains flag withValue before a then [a] else [] := by
  have hearlier : ∀ p ∈ before.zipIdx, (before ++ [a]).take p.2 = before.take p.2 := fun p hp =>
    List.take_append_of_le_length (Nat.zero_add before.length ▸ (List.mem_zipIdx hp).2.1.le)
  have hlast : (before ++ [a]).take before.length = before := List.take_left
  have hfront : before.zipIdx.filter (fun p => Remains flag withValue ((before ++ [a]).take p.2) p.1) =
      before.zipIdx.filter (fun p => Remains flag withValue (before.take p.2) p.1) :=
    List.filter_congr fun p hp => by rw [hearlier p hp]
  rw [remaining, List.zipIdx_append, List.filter_append, List.map_append, hfront, List.zipIdx_singleton,
    Nat.zero_add, List.filter_singleton, hlast, remaining, List.append_cancel_left_eq]
  by_cases hremains : Remains flag withValue before a
  · rw [decide_eq_true hremains, if_pos hremains]
    rfl
  · rw [decide_eq_false hremains, if_neg hremains]
    rfl

theorem onePass_eq_remaining (flag : String) (withValue : Bool) (args : Arguments) :
    onePass flag withValue args = remaining flag withValue args := by
  -- from the end, since an element stays or goes by what stands before it
  induction args using List.reverseRecOn with
  | nil => rfl
  | append_singleton args a ih => rw [onePass_concat, remaining_concat, ih]

/-- What is left of arguments when a flag is taken out everywhere. -/
structure Swept (flag : String) (withValue : Bool) (args rest : Arguments) : Prop where
  /-- The loop comes to its end, and within as many turns as the flag is given times. -/
  looped : ∃ turns ≤ args.count flag, Loops flag withValue args turns rest
  passed : rest = onePass flag withValue args
  gone : flag ∉ rest
  /-- All else is there, in its order. -/
  kept : rest = remaining flag withValue args
  settled : rest.withoutEvery flag withValue = rest

/-- The loop that takes a flag out everywhere ends, and in what one pass from left to right leaves. -/
theorem withoutEvery_sweeps (hflag : flag ≠ "") (withValue : Bool) (args : Arguments) :
    Swept flag withValue args (args.withoutEvery flag withValue) ∧
      (∀ other, (args.withoutEvery flag false).withoutEvery other false =
        (args.withoutEvery other false).withoutEvery flag false) ∧
      ∀ more, (args ++ more).withoutEvery flag false =
        args.withoutEvery flag false ++ more.withoutEvery flag false := by
  obtain ⟨turns, hturns, hloops⟩ := exists_loops hflag withValue args
  have hpass := withoutEvery_eq_onePass hflag withValue args
  refine ⟨⟨⟨turns, hturns, hloops⟩, hpass, hloops.notMem, ?_, ?_⟩, ?_, ?_⟩
  · exact hpass.trans (onePass_eq_remaining flag withValue args)
  · exact withoutEvery_of_notMem hloops.notMem withValue
  · exact fun other => withoutEvery_comm flag other args
  · exact withoutEvery_append flag args

/-- A doubled flag is taken as a flag and its value, and the last one has none to take. -/
theorem withoutEvery_sweeps_doubled :
    "-x" ≠ "" ∧ Swept "-x" true ["-x", "-x", "a.c", "-x", "c", "-g", "-x"] ["a.c", "-g"] ∧
      withoutEvery (withoutEvery ["-x", "-x", "a.c", "-x", "c", "-g", "-x"] "-x" false) "-g" false =
        withoutEvery (withoutEvery ["-x", "-x", "a.c", "-x", "c", "-g", "-x"] "-g" false) "-x" false ∧
      withoutEvery (["-x", "-x", "a.c", "-x", "c", "-g", "-x"] ++ ["-g", "-x"]) "-x" false =
        ["a.c", "c", "-g"] ++ ["-g"] := by
  have hflag : "-x" ≠ "" := by decide
  obtain ⟨hswept, hcomm, happend⟩ :=
    withoutEvery_sweeps hflag true ["-x", "-x", "a.c", "-x", "c", "-g", "-x"]
  have hrest : withoutEvery ["-x", "-x", "a.c", "-x", "c", "-g", "-x"] "-x" true = ["a.c", "-g"] :=
    hswept.passed.trans (by decide)
  rw [hrest] at hswept
  refine ⟨hflag, hswept, hcomm "-g", (happend ["-g", "-x"]).trans ?_⟩
  rw [withoutEvery_eq_filter hflag, withoutEvery_eq_filter hflag]
  decide

end BitcodeWrapper.Arguments
