import BitcodeWrapper.Proofs.Path.Loose
import BitcodeWrapper.Proofs.Text.Loose
import Mathlib.Data.List.Basic

/-! Loose text that is made of characters. It is expanded and brought into normal form as the characters are, so
that a path without lone surrogates is the same whichever way it is read. -/
namespace BitcodeWrapper.Path
open Text

section map

variable {α β : Type} [DecidableEq α] [DecidableEq β] {f : α → β} (hf : f.Injective)
include hf

/-- A renaming of the elements takes cuts to cuts. -/
theorem cutAt_map (mark : α) (as : List α) :
    cutAt (f mark) (as.map f) = (cutAt mark as).map (List.map f) := by
  induction as with
  | nil => rfl
  | cons a as ih =>
    rw [List.map_cons, cutAt, cutAt, ih]
    by_cases ha : a = mark
    · rw [if_pos ha, if_pos (congrArg f ha)]
      rfl
    · rw [if_neg ha, if_neg (hf.ne ha)]
      cases cutAt mark as <;> rfl

theorem settle_map (dot : α) (isRooted : Bool) (settled : List (List α)) (s : List α) :
    settle (f dot) isRooted (settled.map (List.map f)) (s.map f) =
      (settle dot isRooted settled s).map (List.map f) := by
  have hone : s.map f = [f dot] ↔ s = [dot] := (List.map_injective_iff.mpr hf).eq_iff' rfl
  have htwo : ∀ t : List α, t.map f = [f dot, f dot] ↔ t = [dot, dot] :=
    fun t => (List.map_injective_iff.mpr hf).eq_iff' rfl
  have hbne : (s.map f != [f dot, f dot]) = (s != [dot, dot]) := by
    rw [Bool.eq_iff_iff, bne_iff_ne, bne_iff_ne, ne_eq, htwo]
  rw [settle.eq_def, settle.eq_def dot]
  simp only [List.map_eq_nil_iff, hone, hbne]
  split
  · rfl
  split
  · rfl
  cases settled with
  | nil => cases isRooted <;> rfl
  | cons t rest =>
    simp only [List.map_cons, htwo]
    split <;> rfl

theorem normalSegments_map (dot : α) (isRooted : Bool) (ss : List (List α)) :
    normalSegments (f dot) isRooted (ss.map (List.map f)) =
      (normalSegments dot isRooted ss).map (List.map f) := by
  have hfold : ∀ settled : List (List α), (ss.map (List.map f)).foldl (settle (f dot) isRooted)
      (settled.map (List.map f)) = (ss.foldl (settle dot isRooted) settled).map (List.map f) := by
    induction ss with
    | nil => exact fun _ => rfl
    | cons s ss ih =>
      intro settled
      rw [List.map_cons, List.foldl_cons, List.foldl_cons, settle_map hf, ih]
  rw [normalSegments, normalSegments, List.map_reverse]
  exact congrArg List.reverse (hfold [])

end map

namespace Loose

variable {find : String → Option String} {homes : Homes} {env : Bindings} {here : String}

theorem char_injective : Function.Injective Point.char := fun _ _ h => Point.char.inj h

theorem bne_comp_char (mark : Char) : ((· != Point.char mark) ∘ Point.char) = (· != mark) := by
  funext c
  exact Bool.eq_iff_iff.mpr (by simp)

theorem beq_comp_char (mark : Char) : ((· == Point.char mark) ∘ Point.char) = (· == mark) := by
  funext c
  exact Bool.eq_iff_iff.mpr (by simp)

theorem takeWhile_map_char (mark : Char) (cs : List Char) :
    (cs.map Point.char).takeWhile (· != .char mark) = (cs.takeWhile (· != mark)).map .char := by
  rw [List.takeWhile_map, bne_comp_char]

theorem dropWhile_map_char (mark : Char) (cs : List Char) :
    (cs.map Point.char).dropWhile (· != .char mark) = (cs.dropWhile (· != mark)).map .char := by
  rw [List.dropWhile_map, bne_comp_char]

theorem named_map_char (find : String → Option String) (cs : List Char) :
    named find (cs.map .char) = .ok ((find (String.ofList cs)).map fun s => s.toList.map .char) := by
  have hname : LooseText.mk (cs.map .char) = (String.ofList cs : LooseText) := by
    rw [LooseText.ofString, String.toList_ofList]
  rw [named, hname, LooseText.isEncodable_ofString, LooseText.received?_ofString]
  rfl

/-- A variable stands for the same characters. -/
theorem getD_map_valueOr (name written : List Char) :
    ((env.get? (String.ofList name)).map fun s => s.toList.map Point.char).getD (written.map .char) =
      (valueOr env name written).map .char := by
  rw [valueOr]
  cases env.get? (String.ofList name) <;> rfl

theorem isAsciiWord_comp_char : isAsciiWord ∘ Point.char = Text.isAsciiWord := rfl

/-- No mark is where there is none among the characters. -/
theorem map_char_ne_cons {c : Char} {cs : List Char} {ps : Points} (hne : ∀ rest, cs = c :: rest → False) :
    cs.map Point.char = .char c :: ps → False := by
  intro heq
  obtain ⟨c', rest, rfl, hc, -⟩ := List.map_eq_cons_iff.mp heq
  exact hne rest (by rw [Point.char.inj hc])

theorem expandVariables_map_char (env : Bindings) (cs : List Char) :
    expandVariables env (cs.map .char) = .ok ((expandVariablesIn env cs).map .char) := by
  induction cs using expandVariablesIn.induct with
  | case1 => rw [expandVariablesIn, List.map_nil, expandVariables]
  | case2 rest hclosed ih =>
    have hclosed' : Point.char '\x7d' ∈ rest.map Point.char := List.mem_map_of_mem hclosed
    rw [expandVariablesIn, if_pos hclosed, List.map_cons, List.map_cons, expandVariables, if_pos hclosed']
    simp only [takeWhile_map_char, dropWhile_map_char, named_map_char, ← List.map_drop, ih]
    rw [List.map_append, ← getD_map_valueOr, List.map_append]
    rfl
  | case3 rest hopen ih =>
    have hopen' : Point.char '\x7d' ∉ rest.map Point.char :=
      fun hmem => hopen ((List.mem_map_of_injective char_injective).mp hmem)
    rw [expandVariablesIn, if_neg hopen, List.map_cons, List.map_cons, expandVariables, if_neg hopen', ih]
    rfl
  | case4 rest hbrace name hname =>
    rename_i ih
    have hname' : (rest.map Point.char).takeWhile isAsciiWord = [] := by
      rw [List.takeWhile_map, isAsciiWord_comp_char, List.map_eq_nil_iff]
      exact hname
    rw [expandVariablesIn, if_pos hname, List.map_cons, expandVariables, if_pos hname', ih]
    · rfl
    · exact fun _ => map_char_ne_cons hbrace
    · exact hbrace
  | case5 rest hbrace name hname =>
    rename_i ih
    have hname' : (rest.map Point.char).takeWhile isAsciiWord ≠ [] := by
      rw [List.takeWhile_map, isAsciiWord_comp_char, ne_eq, List.map_eq_nil_iff]
      exact hname
    rw [expandVariablesIn, if_neg hname, List.map_cons, expandVariables, if_neg hname']
    · rw [List.takeWhile_map, List.dropWhile_map, isAsciiWord_comp_char, named_map_char, ih,
        List.map_append, ← getD_map_valueOr]
      rfl
    · exact fun _ => map_char_ne_cons hbrace
    · exact hbrace
  | case6 c rest hbrace hdollar ih =>
    rw [expandVariablesIn, List.map_cons, expandVariables, ih]
    · rfl
    · exact fun ps hc => map_char_ne_cons (fun more => hbrace more (Point.char.inj hc))
    · exact fun hc => hdollar (Point.char.inj hc)
    · exact hbrace
    · exact hdollar

theorem dropTrailing_map_char (mark : Char) (cs : List Char) :
    ((cs.map Point.char).reverse.dropWhile (· == .char mark)).reverse = (dropTrailing mark cs).map .char := by
  rw [← List.map_reverse, List.dropWhile_map, beq_comp_char, ← List.map_reverse, dropTrailing]

theorem below_map_char (home rest : List Char) :
    below (home.map .char) (rest.map .char) =
      (if dropTrailing Path.slash home ++ rest = [] then [Path.slash]
        else dropTrailing Path.slash home ++ rest).map .char := by
  rw [below, slash, dropTrailing_map_char, ← List.map_append]
  simp only [List.map_eq_nil_iff]
  split <;> rfl

theorem contains_map_char (c : Char) (cs : List Char) :
    (cs.map Point.char).contains (.char c) = cs.contains c := by
  rw [Bool.eq_iff_iff, List.contains_iff_mem, List.contains_iff_mem, List.mem_map_of_injective char_injective]

theorem homeOf_ofList (homes : Homes) (account : List Char) :
    homeOf homes (String.ofList account) =
      if account = [] then homes.own else homes.accounts.get? (String.ofList account) := by
  rw [homeOf]
  simp only [String.ofList_eq_empty_iff]

theorem expandHome_map_char (homes : Homes) (path : String) :
    expandHome homes (path.toList.map .char) =
      if namesAccountWithNul path then .error .invalidValue
      else .ok ((expandHomeIn homes path.toList).map .char) := by
  rw [namesAccountWithNul, expandHomeIn.eq_def]
  split
  · rename_i rest hpath
    rw [hpath, List.map_cons, expandHome]
    simp only [slash, takeWhile_map_char, dropWhile_map_char, contains_map_char, named_map_char, homeOf_ofList]
    split
    · rfl
    · cases (if rest.takeWhile (· != Path.slash) = [] then homes.own
        else homes.accounts.get? (String.ofList (rest.takeWhile (· != Path.slash)))) with
      | none => rfl
      | some home => exact congrArg Except.ok (below_map_char home.toList _)
  · rename_i hpath
    rw [expandHome]
    · rfl
    · exact fun ps => map_char_ne_cons hpath

theorem takeWhile_map_char_of_ne {cs : List Char} (hne : ∀ rest, cs = '/' :: rest → False) :
    (cs.map Point.char).takeWhile (· = slash) = [] := by
  cases cs with
  | nil => rfl
  | cons c rest =>
    have hc : Point.char c ≠ slash := fun heq => hne rest (by rw [Point.char.inj heq]; rfl)
    exact List.takeWhile_cons_of_neg (by simpa using hc)

theorem rootSlashes_map_char (cs : List Char) :
    rootSlashes (((cs.map Point.char).takeWhile (· = slash)).map fun _ => Path.slash) = rootSlashes cs := by
  have hone : ∀ rest : List Char, (('/' :: rest).map Point.char).takeWhile (· = slash) =
      slash :: (rest.map Point.char).takeWhile (· = slash) :=
    fun rest => List.takeWhile_cons_of_pos (by rfl)
  fun_cases rootSlashes cs with
  | case1 rest =>
    rw [hone, hone, hone]
    rfl
  | case2 rest hthree =>
    rw [hone, hone, takeWhile_map_char_of_ne hthree]
    rfl
  | case3 rest _ htwo =>
    rw [hone, takeWhile_map_char_of_ne htwo]
    rfl
  | case4 _ _ _ hnone =>
    rw [takeWhile_map_char_of_ne hnone]
    rfl

theorem intercalate_map_char (ss : List (List Char)) :
    List.intercalate [slash] (ss.map (List.map .char)) = (joined ss).map .char := by
  rw [joined]
  induction ss with
  | nil => rfl
  | cons s ss ih =>
    cases ss with
    | nil => rw [List.map_singleton, List.intercalate_singleton, List.intercalate_singleton]
    | cons t ss =>
      rw [List.map_cons, List.map_cons, List.intercalate_cons_cons, List.intercalate_cons_cons,
        ← List.map_cons, ih, List.map_append, List.map_append]
      rfl

theorem normal_map_char (cs : List Char) : normal (cs.map .char) = (normalChars cs).map .char := by
  have hsegments : normalSegments (.char '.') (0 < rootSlashes cs) (cutAt slash (cs.map .char)) =
      (normalSegments '.' (0 < rootSlashes cs) (segments cs)).map (List.map .char) := by
    rw [slash, cutAt_map char_injective, normalSegments_map char_injective, segments]
  have hroot : List.replicate (rootSlashes cs) slash = (List.replicate (rootSlashes cs) Path.slash).map .char :=
    List.map_replicate.symm
  rw [normal, rootSlashes_map_char, hsegments, normalChars, intercalate_map_char, hroot, ← List.map_append]
  simp only [List.map_eq_nil_iff]
  split <;> rfl

theorem directory_map_char (cs : List Char) : directory (cs.map .char) = (directoryChars cs).map .char := by
  have hhead : ((cs.map Point.char).reverse.dropWhile (· != slash)).reverse = (headChars cs).map .char := by
    rw [← List.map_reverse, slash, dropWhile_map_char, ← List.map_reverse, headChars]
  have hall : ((headChars cs).map Point.char).all (· == slash) = (headChars cs).all (· == Path.slash) := by
    rw [List.all_map, slash, beq_comp_char]
  rw [directory, hhead, hall, directoryChars, slash, dropTrailing_map_char]
  split <;> rfl

theorem join_toList_append {here path : String} (hrelative : isAbsolute path = false) :
    (Path.join here "").toList ++ path.toList = (Path.join here path).toList := by
  have hhead : path.toList.head? ≠ some Path.slash := by
    simpa [isAbsolute, isAbsoluteChars] using hrelative
  have hnone : ([] : List Char).head? ≠ some Path.slash := nofun
  rw [Path.join, Path.join, String.toList_empty, joinChars, joinChars, if_neg hhead, if_neg hnone,
    String.toList_ofList, String.toList_ofList]
  split <;> simp

theorem absolute_map_char (here path : String) :
    absolute here (path.toList.map .char) =
      (if isAbsolute path then Path.normal path else Path.normal (Path.join here path)).toList.map .char := by
  have hhead : (path.toList.map Point.char).head? = some slash ↔ isAbsolute path = true := by
    rw [isAbsolute, isAbsoluteChars, List.head?_map, Option.map_eq_some_iff, beq_iff_eq]
    exact ⟨fun ⟨c, hc, heq⟩ => Point.char.inj heq ▸ hc, fun hc => ⟨_, hc, rfl⟩⟩
  rw [absolute]
  simp only [hhead]
  split
  · rw [normal_map_char, Path.normal, String.toList_ofList]
  · rename_i hrelative
    rw [LooseText.ofString, ← List.map_append, join_toList_append (Bool.eq_false_iff.mpr hrelative),
      normal_map_char, Path.normal, String.toList_ofList]

end Loose

end BitcodeWrapper.Path
