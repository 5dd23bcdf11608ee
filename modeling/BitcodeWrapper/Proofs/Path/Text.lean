import BitcodeWrapper.Host.Files
import BitcodeWrapper.Path.Extension
import BitcodeWrapper.Proofs.Path.Join
import Mathlib.Data.List.TakeWhile

/-! Paths that spell out a location, and the names cut from a file's path again: its directory, its base
name and that without the extension. -/
namespace BitcodeWrapper.Path

variable {path name : String} {loc : Location}

theorem segments_joined {ss : List (List Char)} (hss : ss ≠ []) (hslash : ∀ s ∈ ss, slash ∉ s) :
    segments (joined ss) = ss :=
  cutAt_intercalate hss hslash

theorem toList_text (loc : Location) :
    (Location.text loc).toList = slash :: joined (loc.map String.toList) := by
  rw [Location.text, String.toList_append, String.toList_intercalate]
  rfl

theorem isAbsolute_text (loc : Location) : isAbsolute (Location.text loc) = true := by
  rw [isAbsolute, isAbsoluteChars, toList_text]
  rfl

theorem toList_of_isAbsolute (h : isAbsolute path = true) : ∃ cs, path.toList = slash :: cs := by
  rw [isAbsolute, isAbsoluteChars, beq_iff_eq] at h
  exact List.head?_eq_some_iff.mp h

theorem isAbsolute_iff : isAbsolute path = true ↔ path.toList.head? = some slash := by
  rw [isAbsolute, isAbsoluteChars, beq_iff_eq]

theorem isAbsolute_join_left (h : isAbsolute path = true) (name : String) :
    isAbsolute (join path name) = true := by
  obtain ⟨cs, hcs⟩ := toList_of_isAbsolute h
  rw [isAbsolute_iff, join, String.toList_ofList, joinChars, hcs]
  split
  · assumption
  · split <;> rfl

/-- The names of a location, read back from its text. -/
theorem names_text (hloc : loc ≠ []) (hslash : ∀ name ∈ loc, slash ∉ name.toList) :
    names (Location.text loc) = "" :: loc := by
  have hcut : segments (slash :: joined (loc.map String.toList)) =
      [] :: loc.map String.toList := by
    rw [segments, cutAt, if_pos rfl]
    exact congrArg _ (segments_joined (by simpa using hloc) (List.forall_mem_map.mpr hslash))
  rw [names, toList_text, hcut, List.map_cons, List.map_map]
  simp [Function.comp_def]

theorem joined_concat {ss : List (List Char)} (hss : ss ≠ []) (s : List Char) :
    joined (ss ++ [s]) = joined ss ++ slash :: s := by
  induction ss with
  | nil => exact (hss rfl).elim
  | cons t ss ih =>
    cases ss with
    | nil => simp [joined, List.intercalate_cons_cons]
    | cons u ss =>
      have hrest := ih nofun
      rw [joined] at hrest ⊢
      rw [List.cons_append, List.cons_append, List.intercalate_cons_cons, ← List.cons_append, hrest,
        joined, joined, List.intercalate_cons_cons, List.append_assoc, List.append_assoc,
        List.append_assoc]

/-- Joined segments end in the last one. -/
theorem getLast?_joined_ne {ss : List (List Char)} (hss : ss ≠ []) (hne : ∀ s ∈ ss, s ≠ [])
    (hslash : ∀ s ∈ ss, slash ∉ s) (cs : List Char) : (cs ++ joined ss).getLast? ≠ some slash := by
  obtain ⟨last, hlast⟩ := Option.ne_none_iff_exists'.mp (mt List.getLast?_eq_none_iff.mp hss)
  obtain ⟨front, rfl⟩ := List.getLast?_eq_some_iff.mp hlast
  have hmem : last ∈ front ++ [last] := List.mem_append_right _ (List.mem_singleton_self last)
  obtain ⟨c, hc⟩ := Option.ne_none_iff_exists'.mp (mt List.getLast?_eq_none_iff.mp (hne last hmem))
  have hends : (cs ++ joined (front ++ [last])).getLast? = some c := by
    by_cases hfront : front = []
    · simp [hfront, joined, List.getLast?_append, hc]
    · rw [joined_concat hfront, List.getLast?_append, List.getLast?_append, List.getLast?_cons, hc]
      rfl
  rw [hends]
  rintro ⟨⟩
  exact hslash last hmem (List.mem_of_getLast? hc)

theorem getLast?_text (hloc : loc ≠ []) (hne : ∀ name ∈ loc, name ≠ "")
    (hslash : ∀ name ∈ loc, slash ∉ name.toList) :
    (Location.text loc).toList.getLast? ≠ some slash := by
  rw [toList_text, ← List.singleton_append]
  exact getLast?_joined_ne (by simpa using hloc)
    (List.forall_mem_map.mpr fun name hname => toList_ne_nil (hne name hname))
    (List.forall_mem_map.mpr hslash) [slash]

/-- A name joined to the text of a location. -/
theorem join_text (hne : ∀ name ∈ loc, name ≠ "") (hslash : ∀ name ∈ loc, slash ∉ name.toList)
    (hname : slash ∉ name.toList) :
    join (Location.text loc) name = Location.text (loc ++ [name]) := by
  apply String.toList_injective
  by_cases hloc : loc = []
  · subst hloc
    rw [toList_join_of_slash hname (by rw [toList_text]; rfl), toList_text, toList_text]
    simp [joined]
  · have habsolute : Location.text loc ≠ "" := fun h => by
      have hlist := toList_text loc
      rw [h] at hlist
      exact nomatch hlist
    rw [toList_join_of_ne_slash habsolute hname (getLast?_text hloc hne hslash), toList_text,
      toList_text, List.map_append, List.map_singleton, joined_concat (by simpa using hloc),
      List.cons_append]

theorem utf8ByteSize_le_join (path : String) (hname : slash ∉ name.toList) :
    path.utf8ByteSize ≤ (join path name).utf8ByteSize := by
  by_cases hpath : path = ""
  · rw [hpath]
    exact Nat.zero_le _
  by_cases hlast : path.toList.getLast? = some slash
  · have hjoin : join path name = path ++ name := by
      apply String.toList_injective
      rw [toList_join_of_slash hname hlast, String.toList_append]
    rw [hjoin, String.utf8ByteSize_append]
    omega
  · rw [join_of_ne_slash hpath hname hlast, String.utf8ByteSize_append, String.utf8ByteSize_append]
    omega

theorem bne_of_mem_reverse {c : Char} {cs : List Char} (h : c ∉ cs) : ∀ d ∈ cs.reverse, (d != c) = true :=
  fun _ hd => bne_iff_ne.mpr fun heq => h (heq ▸ List.mem_reverse.mp hd)

theorem baseChars_append (cs : List Char) {ds : List Char} (hds : slash ∉ ds) :
    baseChars (cs ++ slash :: ds) = ds := by
  rw [baseChars, List.reverse_append, List.reverse_cons, List.append_assoc, List.singleton_append,
    List.takeWhile_append_of_pos (bne_of_mem_reverse hds), List.takeWhile_cons_of_neg (by simp),
    List.append_nil, List.reverse_reverse]

theorem slash_notMem_baseChars (cs : List Char) : slash ∉ baseChars cs := by
  intro h
  have hall := List.all_eq_true.mp (List.all_takeWhile (p := (· != slash)) (l := cs.reverse))
  exact bne_iff_ne.mp (hall _ (List.mem_reverse.mp h)) rfl

theorem slash_notMem_base (path : String) : slash ∉ (base path).toList := by
  rw [base, String.toList_ofList]
  exact slash_notMem_baseChars _

/-- A path without slashes is its own base name. -/
theorem base_of_notMem (h : slash ∉ path.toList) : base path = path := by
  rw [base, baseChars, ← List.append_nil path.toList.reverse,
    List.takeWhile_append_of_pos (bne_of_mem_reverse h), List.takeWhile_nil, List.append_nil,
    List.reverse_reverse, String.ofList_toList]

/-- A joined path is longer than its parts by one slash at most. -/
theorem utf8ByteSize_join_le (front name : String) :
    (join front name).utf8ByteSize ≤ front.utf8ByteSize + 1 + name.utf8ByteSize := by
  have hslash : (String.ofList [slash]).utf8ByteSize = 1 := by decide +kernel
  rw [join, joinChars]
  split
  · rw [String.ofList_toList]
    omega
  split
  · rw [String.ofList_append, String.ofList_toList, String.ofList_toList, String.utf8ByteSize_append]
    omega
  · rw [← List.singleton_append, String.ofList_append, String.ofList_append, String.ofList_toList,
      String.ofList_toList, String.utf8ByteSize_append, String.utf8ByteSize_append, hslash]
    omega

theorem utf8ByteSize_name_le_join (front name : String) :
    name.utf8ByteSize ≤ (join front name).utf8ByteSize := by
  rw [join, joinChars]
  split
  · rw [String.ofList_toList]
  split
  · rw [String.ofList_append, String.ofList_toList, String.ofList_toList, String.utf8ByteSize_append]
    omega
  · rw [← List.singleton_append, String.ofList_append, String.ofList_append, String.ofList_toList,
      String.ofList_toList, String.utf8ByteSize_append, String.utf8ByteSize_append]
    omega

theorem headChars_append (cs : List Char) {ds : List Char} (hds : slash ∉ ds) :
    headChars (cs ++ slash :: ds) = cs ++ [slash] := by
  have happend := headChars_append_baseChars (cs ++ slash :: ds)
  rw [baseChars_append cs hds, List.append_cons cs slash ds] at happend
  rw [List.append_cons cs slash ds]
  exact List.append_cancel_right happend

/-- The base name of a joined path is the name that was joined. -/
theorem baseChars_join (hpath : path ≠ "") (hname : slash ∉ name.toList) :
    baseChars (join path name).toList = name.toList := by
  by_cases hlast : path.toList.getLast? = some slash
  · obtain ⟨cs, hcs⟩ := List.getLast?_eq_some_iff.mp hlast
    rw [toList_join_of_slash hname hlast, hcs, List.append_assoc, List.singleton_append,
      baseChars_append cs hname]
  · rw [toList_join_of_ne_slash hpath hname hlast, baseChars_append _ hname]

/-- The directory of a joined path is the path, if that ends in a name. -/
theorem directory_join (hpath : path ≠ "") (hlast : path.toList.getLast? ≠ some slash)
    (hname : slash ∉ name.toList) : directory (join path name) = path := by
  obtain ⟨c, hends⟩ := Option.ne_none_iff_exists'.mp
    (mt List.getLast?_eq_none_iff.mp (toList_ne_nil hpath))
  obtain ⟨front, hfront⟩ := List.getLast?_eq_some_iff.mp hends
  have hc : c ≠ slash := fun h => hlast (h ▸ hends)
  apply String.toList_injective
  rw [directory, String.toList_ofList, directoryChars, toList_join_of_ne_slash hpath hname hlast,
    headChars_append _ hname, if_neg, dropTrailing, List.reverse_append, List.reverse_singleton,
    List.singleton_append, List.dropWhile_cons_of_pos (by simp), hfront, List.reverse_append,
    List.reverse_singleton, List.singleton_append, List.dropWhile_cons_of_neg (by simpa using hc)]
  · simp
  · rw [hfront]
    simp [hc]

/-- Only a text without slashes has no directory. -/
theorem directory_eq_empty_iff : directory path = "" ↔ slash ∉ path.toList := by
  have hempty : directory path = "" ↔ directoryChars path.toList = [] := by
    rw [directory, ← String.toList_eq_nil_iff, String.toList_ofList]
  rw [hempty, directoryChars]
  constructor
  · intro hnone hmem
    have hhead : slash ∈ headChars path.toList := by
      rw [← headChars_append_baseChars path.toList] at hmem
      exact (List.mem_append.mp hmem).resolve_right (slash_notMem_baseChars _)
    split at hnone
    · rw [hnone] at hhead
      exact nomatch hhead
    · rename_i hother
      rw [dropTrailing, List.reverse_eq_nil_iff, List.dropWhile_eq_nil_iff] at hnone
      exact hother (List.all_eq_true.mpr fun c hc => hnone c (List.mem_reverse.mpr hc))
  · intro hnone
    have hhead : headChars path.toList = [] := by
      rw [headChars, List.reverse_eq_nil_iff, List.dropWhile_eq_nil_iff]
      exact bne_of_mem_reverse hnone
    rw [hhead]
    rfl

/-- An extension that is added to a name is cut off again, unless the name is made of dots. -/
theorem cutChars_append_extension {cs ds : List Char} (hcs : ∃ c ∈ cs, c ≠ '.') (hds : '.' ∉ ds) :
    cutChars (cs ++ '.' :: ds) = (cs, '.' :: ds) := by
  have hall := bne_of_mem_reverse hds
  have hreverse : (cs ++ '.' :: ds).reverse = ds.reverse ++ '.' :: cs.reverse := by simp
  have hany : cs.reverse.any (· != '.') = true := by simpa using hcs
  rw [cutChars, hreverse, List.dropWhile_append_of_pos hall, List.dropWhile_cons_of_neg (by simp)]
  simp only [hany, ↓reduceIte, List.reverse_reverse]
  rw [List.takeWhile_append_of_pos hall, List.takeWhile_cons_of_neg (by simp), List.append_nil,
    List.reverse_reverse]

theorem stem_join {source : String} (hpath : path ≠ "") (hslash : slash ∉ source.toList)
    (hdots : ∃ c ∈ source.toList, c ≠ '.') : stem (join path (source ++ ".bc")) = source := by
  have hname : slash ∉ (source ++ ".bc").toList := by
    rw [String.toList_append]
    exact List.not_mem_append hslash (by decide)
  rw [stem, baseChars_join hpath hname, String.toList_append]
  have hcut : cutChars (source.toList ++ ".bc".toList) = (source.toList, ".bc".toList) :=
    cutChars_append_extension hdots (by decide)
  rw [hcut, String.ofList_toList]

end BitcodeWrapper.Path
