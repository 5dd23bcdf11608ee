import BitcodeWrapper.Proofs.StageCommand.Build
import BitcodeWrapper.Proofs.StageCommand.Removal

/-! The command line that emits bitcode. Of the arguments it keeps all but the barred ones and the first
output flag, which goes with the element that follows it when the listed flags are gone. -/
namespace BitcodeWrapper.StageCommand
open Arguments

variable {args rest body : Arguments} {bitcode : String}

/-- In the order of stage one the listed flags are gone when the output flag takes its value, and the
sanitizers are not. -/
theorem perform_removals (hrest : DropsPair outputFlag (args.filter (· ∉ forbiddenFlags)) rest) :
    perform removals args = rest.filter (¬ IsBarred ·) := by
  have horder : forbiddenFlags.map .switch ++ .output :: [.sanitizers] = removals := rfl
  have hswitches : args.filter (spares (forbiddenFlags.map .switch)) =
      args.filter (· ∉ forbiddenFlags) := List.filter_congr fun a _ => spares_switches a
  rw [← horder, perform_split (horder ▸ List.Perm.refl _), hswitches,
    (dropsPair_iff (by decide)).mp hrest]
  refine List.filter_congr fun a ha => ?_
  have hlisted : a ∉ forbiddenFlags := of_decide_eq_true (List.mem_filter.mp (hrest.subset ha)).2
  simp [spares, Removal.keeps, IsBarred, hlisted]

theorem emitBitcode_eq_append (hbitcode : bitcode ≠ "") (args : Arguments) :
    ∃ rest, DropsPair outputFlag (args.filter (· ∉ forbiddenFlags)) rest ∧
      emitBitcode args bitcode = rest.filter (¬ IsBarred ·) ++
        ["-emit-llvm", outputFlag, bitcode, unusedArgumentFlag] := by
  have hrest : DropsPair outputFlag (args.filter (· ∉ forbiddenFlags))
      (without (args.filter (· ∉ forbiddenFlags)) outputFlag true) :=
    (dropsPair_iff (by decide)).mpr rfl
  refine ⟨_, hrest, ?_⟩
  rw [← perform_removals hrest, emitBitcode_eq_perform,
    adding_empty (show unusedArgumentFlag ≠ "" by decide),
    adding_of_ne (show outputFlag ≠ "" by decide) hbitcode, adding_empty (by decide),
    List.append_assoc, List.append_assoc]
  rfl

/-- How the command line of stage one comes from the arguments. -/
structure Emission (args : Arguments) (bitcode : String) (body : Arguments) : Prop where
  commandLine : emitBitcode args bitcode =
    body ++ ["-emit-llvm", outputFlag, bitcode, unusedArgumentFlag]
  sublist : body.Sublist args
  unbarred : ∀ a ∈ body, ¬ IsBarred a
  /-- Nothing else is missing. -/
  kept : ∃ rest, DropsPair outputFlag (args.filter (· ∉ forbiddenFlags)) rest ∧
    body = rest.filter (¬ IsBarred ·)
  lastOutput : LastValue (emitBitcode args bitcode) outputFlag bitcode
  onlyOutput : args.count outputFlag ≤ 1 → (emitBitcode args bitcode).count outputFlag = 1

theorem outputFlag_ne_of_isAbsolute (habsolute : Path.isAbsolute bitcode = true) :
    outputFlag ≠ bitcode := by
  rintro rfl
  exact absurd habsolute (by decide +kernel)

theorem count_outputFlag_end (habsolute : Path.isAbsolute bitcode = true) :
    ["-emit-llvm", outputFlag, bitcode, unusedArgumentFlag].count outputFlag = 1 := by
  rw [List.count_cons_of_ne (by decide), List.count_cons_self,
    List.count_cons_of_ne (outputFlag_ne_of_isAbsolute habsolute).symm]
  decide

/-- Stage one takes from the arguments what must not reach the bitcode and their own output, and nothing
else. -/
theorem emitBitcode_keeps_rest (habsolute : Path.isAbsolute bitcode = true) (args : Arguments) :
    ∃ body, Emission args bitcode body := by
  obtain ⟨rest, hrest, hline⟩ := emitBitcode_eq_append (ne_empty_of_isAbsolute habsolute) args
  refine ⟨rest.filter (¬ IsBarred ·), hline, ?_, ?_, ⟨rest, hrest, rfl⟩, ?_, fun honce => ?_⟩
  · exact (List.filter_sublist.trans hrest.sublist).trans List.filter_sublist
  · exact fun a ha => of_decide_eq_true (List.mem_filter.mp ha).2
  · exact lastValue_of_suffix (suffix_emitBitcode (ne_empty_of_isAbsolute habsolute) args)
      (outputFlag_ne_of_isAbsolute habsolute) (by decide)
  · have hcount : (args.filter (· ∉ forbiddenFlags)).count outputFlag ≤ 1 :=
      Nat.le_trans (List.filter_sublist.count_le _) honce
    have hgone : outputFlag ∉ rest.filter (¬ IsBarred ·) := fun h =>
      hrest.notMem_of_count_le_one hcount (List.mem_filter.mp h).1
    rw [hline, List.count_append, List.count_eq_zero.mpr hgone, count_outputFlag_end habsolute]

/-- With the switch between them gone, the output flag takes a sanitizer, and the flag that ends the
arguments is left without a value. -/
theorem emitBitcode_keeps_rest_adjacent :
    Path.isAbsolute "/w/x.c.bc" = true ∧
      Emission ["-o", "-g", "-fsanitize=address", "-c", "x.c", "-fsanitize=thread", "-g", "-o"]
        "/w/x.c.bc" ["-c", "x.c", "-o"] := by
  have habsolute : Path.isAbsolute "/w/x.c.bc" = true := by decide +kernel
  obtain ⟨body, hemission⟩ := emitBitcode_keeps_rest habsolute
    ["-o", "-g", "-fsanitize=address", "-c", "x.c", "-fsanitize=thread", "-g", "-o"]
  obtain ⟨rest, hrest, hbody⟩ := hemission.kept
  rw [← (dropsPair_iff (by decide)).mp hrest] at hbody
  have hvalue : body = ["-c", "x.c", "-o"] := hbody.trans (by decide +kernel)
  exact ⟨habsolute, hvalue ▸ hemission⟩

end BitcodeWrapper.StageCommand
