import BitcodeWrapper.Proofs.ArgumentVector.Everywhere
import BitcodeWrapper.StageCommand

/-! The removals of stage one as steps that can be put in any order. All but one are filters; the output
flag goes by its place, with whatever follows it by then. The order is of no consequence as long as that is
the same element throughout. -/
namespace BitcodeWrapper.StageCommand
open Arguments

/-- What must not reach the bitcode: a flag that is listed, or a sanitizer. -/
def IsBarred (a : String) : Prop := a ∈ forbiddenFlags ∨ sanitizers.matchesAll a = true

instance : DecidablePred IsBarred := fun _ => inferInstanceAs (Decidable (_ ∨ _))

inductive Removal where
  | switch (flag : String)
  | output
  | sanitizers
  deriving Repr, DecidableEq

namespace Removal

def apply : Removal → Arguments → Arguments
  | switch flag, args => args.withoutEvery flag false
  | output, args => args.without outputFlag true
  | sanitizers, args => args.withoutMatching StageCommand.sanitizers

/-- Whether an element stays wherever it stands. The output flag and its value go by their place alone. -/
def keeps (a : String) : Removal → Bool
  | switch flag => decide (a ≠ flag)
  | output => true
  | sanitizers => !StageCommand.sanitizers.matchesAll a

end Removal

/-- The removals in the order in which stage one makes them. -/
def removals : List Removal := forbiddenFlags.map .switch ++ [.output, .sanitizers]

def perform (order : List Removal) (args : Arguments) : Arguments :=
  order.foldl (fun args removal => removal.apply args) args

theorem emitBitcode_eq_perform (args : Arguments) (bitcode : String) :
    emitBitcode args bitcode = (((perform removals args).adding "-emit-llvm" "").adding outputFlag
      bitcode).adding unusedArgumentFlag "" := by
  simp only [emitBitcode, perform, removals, List.foldl_append, List.foldl_map]
  rfl

/-- Whether an element stays under all of these removals, the place of the output flag apart. -/
def spares (order : List Removal) (a : String) : Bool := order.all (·.keeps a)

variable {args before after tail : Arguments} {order first last : List Removal} {object : String}

theorem spares_switches (a : String) :
    spares (forbiddenFlags.map .switch) a = decide (a ∉ forbiddenFlags) := by
  rw [spares, List.all_map, Bool.eq_iff_iff, List.all_eq_true, decide_eq_true_eq]
  exact ⟨fun h hmem => of_decide_eq_true (h a hmem) rfl,
    fun h flag hflag => decide_eq_true fun heq => h (heq ▸ hflag)⟩

theorem spares_removals (a : String) : spares removals a = decide (¬ IsBarred a) := by
  rw [spares, removals, List.all_append, ← spares, spares_switches]
  simp [Removal.keeps, IsBarred]

theorem apply_eq_filter {removal : Removal} (hmem : removal ∈ removals)
    (hplace : removal ≠ .output) (args : Arguments) :
    removal.apply args = args.filter (fun a => removal.keeps a) := by
  cases removal with
  | switch flag =>
    have hflag : flag ∈ forbiddenFlags := by simpa [removals] using hmem
    exact withoutEvery_eq_filter (fun h => absurd (h ▸ hflag) (by decide)) args
  | output => exact absurd rfl hplace
  | sanitizers => rfl

theorem perform_eq_filter (hmem : order ⊆ removals) (hplace : .output ∉ order) (args : Arguments) :
    perform order args = args.filter (spares order) := by
  induction order generalizing args with
  | nil => exact (List.filter_eq_self.mpr fun _ _ => rfl).symm
  | cons removal order ih =>
    obtain ⟨hremoval, horder⟩ := List.cons_subset.mp hmem
    obtain ⟨hne, hnotMem⟩ := not_or.mp (mt List.mem_cons.mpr hplace)
    calc perform (removal :: order) args
        = perform order (args.filter (fun a => removal.keeps a)) :=
          congrArg (perform order) (apply_eq_filter hremoval (Ne.symm hne) args)
      _ = (args.filter (fun a => removal.keeps a)).filter (spares order) := ih horder hnotMem _
      _ = args.filter (spares (removal :: order)) := by
          rw [List.filter_filter]
          exact List.filter_congr fun a _ => Bool.and_comm _ _

/-- The order comes down to what follows the output flag when its turn comes. -/
theorem perform_split (horder : (first ++ .output :: last).Perm removals) (args : Arguments) :
    perform (first ++ .output :: last) args =
      (without (args.filter (spares first)) outputFlag true).filter (spares last) := by
  have hmem : first ⊆ removals ∧ .output :: last ⊆ removals :=
    List.append_subset.mp horder.subset
  have hplace : .output ∉ first ∧ .output ∉ last := by
    have hnodup : (first ++ .output :: last).Nodup := horder.nodup_iff.mpr (by decide)
    have hcons := List.nodup_cons.mp (List.perm_middle.nodup_iff.mp hnodup)
    exact not_or.mp (mt List.mem_append.mpr hcons.1)
  rw [← perform_eq_filter hmem.1 hplace.1,
    ← perform_eq_filter (List.cons_subset.mp hmem.2).2 hplace.2, perform, List.foldl_append]
  rfl

/-- Together the removals before and after the output flag spare what is not barred. -/
theorem spares_split (horder : (first ++ .output :: last).Perm removals) (a : String) :
    (spares last a && spares first a) = decide (¬ IsBarred a) := by
  rw [← spares_removals, spares, spares, spares, ← horder.all_eq, List.all_append, List.all_cons,
    Bool.and_comm]
  rfl

theorem filter_spares_split (horder : (first ++ .output :: last).Perm removals) (args : Arguments) :
    (args.filter (spares first)).filter (spares last) = args.filter (¬ IsBarred ·) := by
  rw [List.filter_filter]
  exact List.filter_congr fun a _ => spares_split horder a

theorem spares_of_not_isBarred (horder : (first ++ .output :: last).Perm removals) {a : String}
    (h : ¬ IsBarred a) : spares first a = true := by
  have hsplit := spares_split horder a
  rw [decide_eq_true h] at hsplit
  exact (Bool.and_eq_true_iff.mp hsplit).2

theorem not_isBarred_outputFlag : ¬ IsBarred outputFlag := by decide +kernel

theorem perform_of_notMem (horder : (first ++ .output :: last).Perm removals)
    (hargs : outputFlag ∉ args) :
    perform (first ++ .output :: last) args = args.filter (¬ IsBarred ·) := by
  rw [perform_split horder, without, if_neg (by decide),
    withoutFirst_of_notMem (fun h => hargs (List.mem_filter.mp h).1), filter_spares_split horder]

/-- What stands in front of the output flag is only filtered. -/
theorem perform_append_cons (horder : (first ++ .output :: last).Perm removals)
    (hbefore : outputFlag ∉ before) (tail : Arguments) :
    perform (first ++ .output :: last) (before ++ outputFlag :: tail) =
      before.filter (¬ IsBarred ·) ++
        ((tail.filter (spares first)).drop 1).filter (spares last) := by
  rw [perform_split horder, without, if_neg (by decide), List.filter_append,
    List.filter_cons_of_pos (spares_of_not_isBarred horder not_isBarred_outputFlag),
    withoutFirst_append_cons (fun h => hbefore (List.mem_filter.mp h).1), List.filter_append,
    filter_spares_split horder]

theorem filter_drop_filter_of_spares (horder : (first ++ .output :: last).Perm removals)
    (hobject : spares first object = true) :
    (((object :: after).filter (spares first)).drop 1).filter (spares last) =
      after.filter (¬ IsBarred ·) := by
  rw [List.filter_cons_of_pos hobject, List.drop_one, List.tail_cons, filter_spares_split horder]

/-- Once the element after the output flag is gone, the next that is left goes with the flag. -/
theorem filter_drop_filter_of_not_spares (horder : (first ++ .output :: last).Perm removals)
    (hobject : ¬ spares first object = true) (after : Arguments) :
    List.Sublist ((((object :: after).filter (spares first)).drop 1).filter (spares last))
      (after.filter (¬ IsBarred ·)) := by
  rw [List.filter_cons_of_neg hobject, ← filter_spares_split horder]
  exact (List.drop_sublist _ _).filter _

/-- If the element after the first output flag is barred, so is all that follows. -/
def SettlesObject (args : Arguments) : Prop :=
  ∀ before object after, args = before ++ outputFlag :: object :: after → outputFlag ∉ before →
    IsBarred object → ∀ a ∈ after, IsBarred a

theorem perform_eq_of_settlesObject (hsettles : SettlesObject args) (horder : order.Perm removals) :
    perform order args = (args.without outputFlag true).filter (¬ IsBarred ·) := by
  obtain ⟨first, last, rfl⟩ :=
    List.append_of_mem (horder.mem_iff.mpr (by decide : .output ∈ removals))
  rw [without, if_neg (by decide)]
  by_cases hargs : outputFlag ∈ args
  · obtain ⟨before, tail, rfl, hbefore⟩ := List.eq_append_cons_of_mem hargs
    rw [perform_append_cons horder hbefore, withoutFirst_append_cons hbefore, List.filter_append,
      List.append_cancel_left_eq]
    cases tail with
    | nil => rfl
    | cons object after =>
      by_cases hobject : spares first object = true
      · exact filter_drop_filter_of_spares horder hobject
      · -- another element may go with the flag, but none of these stays
        have hbarred : IsBarred object :=
          Decidable.byContradiction fun hnot => hobject (spares_of_not_isBarred horder hnot)
        have hnone : after.filter (¬ IsBarred ·) = [] :=
          List.filter_eq_nil_iff.mpr fun a ha => by
            simpa using hsettles before object after rfl hbefore hbarred a ha
        have hleft := filter_drop_filter_of_not_spares horder hobject after
        rw [hnone] at hleft
        exact (List.sublist_nil.mp hleft).trans hnone.symm
  · rw [perform_of_notMem horder hargs, withoutFirst_of_notMem hargs]

def filters : List Removal := removals.erase .output

/-- The output flag first and the output flag last are orders that differ where any two do. -/
theorem settlesObject_of_perform_eq
    (hfree : ∀ order, order.Perm removals → perform order args = perform removals args) :
    SettlesObject args := by
  rintro before object after rfl hbefore hobject
  have hearly : ([] ++ Removal.output :: filters).Perm removals :=
    (List.perm_cons_erase (by decide)).symm
  have hlate : (filters ++ Removal.output :: []).Perm removals :=
    (List.perm_append_singleton _ _).trans hearly
  have hnil : ∀ args : Arguments, args.filter (spares []) = args := fun args =>
    List.filter_eq_self.mpr fun _ _ => rfl
  have hgone : ¬ spares filters object = true := by
    have hsplit := spares_split hlate object
    rw [decide_eq_false (not_not_intro hobject)] at hsplit
    simpa [spares] using hsplit
  -- early, the flag takes the barred element and all that is spared behind it stays; late, it takes the
  -- first of these instead, so that there is none
  have hsame := (hfree _ hearly).trans (hfree _ hlate).symm
  rw [perform_append_cons hearly hbefore, perform_append_cons hlate hbefore,
    List.append_cancel_left_eq, filter_drop_filter_of_spares hearly rfl,
    List.filter_cons_of_neg hgone, hnil, ← filter_spares_split hlate, hnil] at hsame
  have hlength := congrArg List.length hsame
  rw [List.length_drop] at hlength
  have hnone : (after.filter (spares filters)).filter (spares []) = [] := by
    rw [hnil]
    exact List.eq_nil_of_length_eq_zero (by omega)
  rw [filter_spares_split hlate] at hnone
  intro a ha
  simpa using List.filter_eq_nil_iff.mp hnone a ha

/-- The order of the removals shows in the result exactly if the element after the first output flag is
barred and something is kept behind it. -/
theorem perform_eq_iff_settlesObject :
    (∀ order, order.Perm removals → perform order args = perform removals args) ↔
      SettlesObject args := by
  refine ⟨settlesObject_of_perform_eq, fun hsettles order horder => ?_⟩
  rw [perform_eq_of_settlesObject hsettles horder,
    perform_eq_of_settlesObject hsettles (List.Perm.refl _)]

/-- The element after the first output flag, if there is one, is not barred. -/
def SparesObject (args : Arguments) : Prop :=
  ∀ before object after, args = before ++ outputFlag :: object :: after → outputFlag ∉ before →
    ¬ IsBarred object

/-- Stage one may make its removals in any order. -/
theorem emitBitcode_removals_perm (hspares : SparesObject args) (horder : order.Perm removals) :
    perform order args = perform removals args ∧
      ∀ bitcode, emitBitcode args bitcode = (((perform order args).adding "-emit-llvm" "").adding
        outputFlag bitcode).adding unusedArgumentFlag "" := by
  have hsettles : SettlesObject args := fun before object after hargs hbefore hobject =>
    absurd hobject (hspares before object after hargs hbefore)
  have hsame := perform_eq_iff_settlesObject.mpr hsettles order horder
  refine ⟨hsame, fun bitcode => ?_⟩
  rw [hsame, emitBitcode_eq_perform]

/-- Backwards, the sanitizers go first and the output flag before the switches on either side of it. -/
theorem emitBitcode_removals_perm_reversed :
    SparesObject ["-g", "-o", "x.o", "-fsanitize=address", "x.c", "-o", "-gmodules"] ∧
      removals.reverse.Perm removals ∧
      perform removals.reverse ["-g", "-o", "x.o", "-fsanitize=address", "x.c", "-o", "-gmodules"] =
        perform removals ["-g", "-o", "x.o", "-fsanitize=address", "x.c", "-o", "-gmodules"] := by
  have hspares : SparesObject ["-g", "-o", "x.o", "-fsanitize=address", "x.c", "-o", "-gmodules"] := by
    intro before object after hargs hbefore
    have hfirst : outputFlag ∉ ["-g"] := by decide
    obtain ⟨-, htail⟩ := append_cons_inj_of_first hfirst hbefore hargs
    rw [← (List.cons.inj htail).1]
    decide +kernel
  have horder : removals.reverse.Perm removals := List.reverse_perm _
  exact ⟨hspares, horder, (emitBitcode_removals_perm hspares horder).1⟩

end BitcodeWrapper.StageCommand
