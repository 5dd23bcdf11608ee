import BitcodeWrapper.Path.Basic

/-! A name joined to a path: the names of the whole are those of the path and then the name. -/
namespace BitcodeWrapper.Path

theorem cutAt_ne_nil (mark : Char) (cs : List Char) : cutAt mark cs ≠ [] := by
  cases cs with
  | nil => exact nofun
  | cons c cs =>
    rw [cutAt]
    split
    · exact nofun
    · split <;> exact nofun

theorem cutAt_append_mark (mark : Char) (cs ds : List Char) :
    cutAt mark (cs ++ mark :: ds) = cutAt mark cs ++ cutAt mark ds := by
  induction cs with
  | nil => simp [cutAt]
  | cons c cs ih =>
    by_cases hc : c = mark
    · simp [cutAt, hc, ih]
    · simp only [List.cons_append, cutAt, if_neg hc, ih]
      rcases hcut : cutAt mark cs with _ | ⟨s, ss⟩
      · exact absurd hcut (cutAt_ne_nil mark cs)
      · rfl

theorem cutAt_of_notMem {mark : Char} {cs : List Char} (h : mark ∉ cs) : cutAt mark cs = [cs] := by
  induction cs with
  | nil => rfl
  | cons c cs ih =>
    obtain ⟨hc, hcs⟩ := not_or.mp (mt List.mem_cons.mpr h)
    rw [cutAt, if_neg (Ne.symm hc), ih hcs]

theorem notMem_of_mem_cutAt {mark : Char} {cs s : List Char} (h : s ∈ cutAt mark cs) : mark ∉ s := by
  induction cs generalizing s with
  | nil =>
    rw [List.mem_singleton.mp h]
    exact List.not_mem_nil
  | cons c cs ih =>
    rw [cutAt] at h
    split at h
    · rcases List.mem_cons.mp h with rfl | h
      · exact List.not_mem_nil
      · exact ih h
    · rename_i hc
      rcases hcut : cutAt mark cs with _ | ⟨t, ts⟩
      · exact absurd hcut (cutAt_ne_nil mark cs)
      · rw [hcut] at h ih
        rcases List.mem_cons.mp h with rfl | h
        · exact not_or.mpr ⟨Ne.symm hc, ih List.mem_cons_self⟩ ∘ List.mem_cons.mp
        · exact ih (List.mem_cons_of_mem t h)

/-- What stands in a segment stands in the text. -/
theorem mem_of_mem_cutAt {mark c : Char} {cs s : List Char} (h : s ∈ cutAt mark cs) (hc : c ∈ s) : c ∈ cs := by
  induction cs generalizing s with
  | nil =>
    rw [List.mem_singleton.mp h] at hc
    exact hc
  | cons d cs ih =>
    rw [cutAt] at h
    split at h
    · rcases List.mem_cons.mp h with rfl | h
      · exact nomatch hc
      · exact List.mem_cons_of_mem d (ih h hc)
    · rcases hcut : cutAt mark cs with _ | ⟨t, ts⟩
      · exact absurd hcut (cutAt_ne_nil mark cs)
      · rw [hcut] at h ih
        rcases List.mem_cons.mp h with rfl | h
        · rcases List.mem_cons.mp hc with rfl | hc
          · exact List.mem_cons_self
          · exact List.mem_cons_of_mem d (ih List.mem_cons_self hc)
        · exact List.mem_cons_of_mem d (ih (List.mem_cons_of_mem t h) hc)

/-- Segments without the mark are cut out again where they were joined by it. -/
theorem cutAt_intercalate {mark : Char} {ss : List (List Char)} (hss : ss ≠ [])
    (hmark : ∀ s ∈ ss, mark ∉ s) : cutAt mark (List.intercalate [mark] ss) = ss := by
  induction ss with
  | nil => exact (hss rfl).elim
  | cons s ss ih =>
    obtain ⟨hs, hrest⟩ := List.forall_mem_cons.mp hmark
    cases ss with
    | nil => rw [List.intercalate_singleton, cutAt_of_notMem hs]
    | cons t ss =>
      rw [List.intercalate_cons_cons, List.append_assoc, List.singleton_append, cutAt_append_mark,
        cutAt_of_notMem hs, ih (List.cons_ne_nil t ss) hrest, List.singleton_append]

variable {path name : String}

theorem toList_ne_nil {s : String} (h : s ≠ "") : s.toList ≠ [] :=
  fun hnil => h (String.toList_eq_nil_iff.mp hnil)

theorem head?_ne_slash (hslash : slash ∉ name.toList) : name.toList.head? ≠ some slash :=
  fun h => hslash (List.mem_of_head? h)

theorem toList_join_of_slash (hslash : slash ∉ name.toList)
    (hlast : path.toList.getLast? = some slash) :
    (join path name).toList = path.toList ++ name.toList := by
  rw [join, joinChars, if_neg (head?_ne_slash hslash), if_pos (by simp [hlast]),
    String.toList_ofList]

theorem toList_join_of_ne_slash (hpath : path ≠ "") (hslash : slash ∉ name.toList)
    (hlast : path.toList.getLast? ≠ some slash) :
    (join path name).toList = path.toList ++ slash :: name.toList := by
  have hne := toList_ne_nil hpath
  rw [join, joinChars, if_neg (head?_ne_slash hslash), if_neg (by simp [hlast, hne]),
    String.toList_ofList]

theorem toList_append_slash (front name : String) :
    (front ++ "/" ++ name).toList = front.toList ++ slash :: name.toList := by
  rw [String.toList_append, String.toList_append, List.append_assoc]
  rfl

theorem join_of_ne_slash (hpath : path ≠ "") (hslash : slash ∉ name.toList)
    (hlast : path.toList.getLast? ≠ some slash) : join path name = path ++ "/" ++ name := by
  apply String.toList_injective
  rw [toList_join_of_ne_slash hpath hslash hlast, toList_append_slash]

theorem mem_of_mem_join {c : Char} (h : c ∈ (join path name).toList) :
    c ∈ path.toList ∨ c = slash ∨ c ∈ name.toList := by
  rw [join, joinChars, String.toList_ofList] at h
  split at h
  · exact .inr (.inr h)
  split at h
  · rcases List.mem_append.mp h with h | h
    · exact .inl h
    · exact .inr (.inr h)
  · rcases List.mem_append.mp h with h | h
    · exact .inl h
    · exact .inr (List.mem_cons.mp h)

/-- Something stands before the name, so that there is a slash. -/
theorem slash_mem_join (hpath : path ≠ "") (name : String) : slash ∈ (join path name).toList := by
  rw [join, joinChars, String.toList_ofList]
  split
  · rename_i hhead
    exact List.mem_of_head? hhead
  split
  · rename_i hends
    simp only [toList_ne_nil hpath, decide_false, Bool.false_or, decide_eq_true_eq] at hends
    exact List.mem_append_left _ (List.mem_of_getLast? hends)
  · exact List.mem_append_right _ List.mem_cons_self

theorem names_join_of_ne_slash (hpath : path ≠ "") (hslash : slash ∉ name.toList)
    (hlast : path.toList.getLast? ≠ some slash) : names (join path name) = names path ++ [name] := by
  rw [names, toList_join_of_ne_slash hpath hslash hlast, segments, cutAt_append_mark,
    cutAt_of_notMem hslash, List.map_append]
  simp [names, segments]

/-- A path that ends in a slash has an empty name at its end, which the joined name replaces. -/
theorem names_join (hpath : path ≠ "") (hslash : slash ∉ name.toList) :
    ∃ ns, (names path = ns ∨ names path = ns ++ [""]) ∧ names (join path name) = ns ++ [name] := by
  by_cases hlast : path.toList.getLast? = some slash
  · obtain ⟨cs, hcs⟩ := List.getLast?_eq_some_iff.mp hlast
    refine ⟨(segments cs).map String.ofList, .inr ?_, ?_⟩
    · rw [names, hcs, segments, cutAt_append_mark, List.map_append]
      rfl
    · rw [names, toList_join_of_slash hslash hlast, hcs, List.append_assoc,
        List.singleton_append, segments, cutAt_append_mark, cutAt_of_notMem hslash,
        List.map_append]
      simp [segments]
  · exact ⟨names path, .inl rfl, names_join_of_ne_slash hpath hslash hlast⟩

theorem isAbsolute_join (hpath : path ≠ "") (hslash : slash ∉ name.toList) :
    isAbsolute (join path name) = isAbsolute path := by
  obtain ⟨c, cs, hcs⟩ := List.exists_cons_of_ne_nil (toList_ne_nil hpath)
  by_cases hlast : path.toList.getLast? = some slash
  · rw [isAbsolute, isAbsolute, toList_join_of_slash hslash hlast, hcs]
    rfl
  · rw [isAbsolute, isAbsolute, toList_join_of_ne_slash hpath hslash hlast, hcs]
    rfl

end BitcodeWrapper.Path
