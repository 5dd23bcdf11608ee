import BitcodeWrapper.Pattern.Basic

/-! What a pattern matches, said constructor by constructor, and the matching by derivatives, which finds
exactly that. A pattern that looks at no anchor stands for a set of texts, wherever they are. -/
namespace BitcodeWrapper.Pattern

/-- The pattern matches a text in its place: nothing stands before it if `isFirst` holds, and `rest` stands
behind it. -/
inductive Reads : Pattern → (isFirst : Bool) → (cs rest : List Char) → Prop
  | empty {isFirst : Bool} {rest : List Char} : Reads .empty isFirst [] rest
  | one {cls : CharClass} {isFirst : Bool} {c : Char} {rest : List Char}
      (covered : cls.covers c = true) : Reads (.one cls) isFirst [c] rest
  | atStart {rest : List Char} : Reads .atStart true [] rest
  | atStop {isFirst : Bool} {rest : List Char} (stop : Place.isStop ⟨isFirst, rest⟩ = true) :
      Reads .atStop isFirst [] rest
  | seq {p q : Pattern} {isFirst : Bool} {cs ds rest : List Char}
      (before : Reads p isFirst cs (ds ++ rest))
      (after : Reads q (isFirst && cs.isEmpty) ds rest) : Reads (.seq p q) isFirst (cs ++ ds) rest
  | left {p q : Pattern} {isFirst : Bool} {cs rest : List Char} (chosen : Reads p isFirst cs rest) :
      Reads (.alt p q) isFirst cs rest
  | right {p q : Pattern} {isFirst : Bool} {cs rest : List Char} (chosen : Reads q isFirst cs rest) :
      Reads (.alt p q) isFirst cs rest
  | done {p : Pattern} {isFirst : Bool} {rest : List Char} : Reads (.star p) isFirst [] rest
  | again {p : Pattern} {isFirst : Bool} {cs ds rest : List Char}
      (once : Reads p isFirst cs (ds ++ rest))
      (more : Reads (.star p) (isFirst && cs.isEmpty) ds rest) :
      Reads (.star p) isFirst (cs ++ ds) rest

variable {p q : Pattern} {cls : CharClass} {isFirst : Bool} {c : Char} {cs rest text : List Char}

theorem reads_empty_iff : Reads .empty isFirst cs rest ↔ cs = [] := by
  constructor
  · rintro ⟨⟩
    rfl
  · rintro rfl
    exact .empty

theorem reads_one_iff : Reads (.one cls) isFirst cs rest ↔ ∃ c, cs = [c] ∧ cls.covers c = true := by
  constructor
  · rintro ⟨⟩
    exact ⟨_, rfl, ‹_›⟩
  · rintro ⟨c, rfl, covered⟩
    exact .one covered

theorem reads_atStart_iff : Reads .atStart isFirst cs rest ↔ cs = [] ∧ isFirst = true := by
  constructor
  · rintro ⟨⟩
    exact ⟨rfl, rfl⟩
  · rintro ⟨rfl, rfl⟩
    exact .atStart

theorem reads_atStop_iff :
    Reads .atStop isFirst cs rest ↔ cs = [] ∧ Place.isStop ⟨isFirst, rest⟩ = true := by
  constructor
  · rintro ⟨⟩
    exact ⟨rfl, ‹_›⟩
  · rintro ⟨rfl, stop⟩
    exact .atStop stop

theorem reads_seq_iff : Reads (.seq p q) isFirst cs rest ↔
    ∃ xs ys, cs = xs ++ ys ∧ Reads p isFirst xs (ys ++ rest) ∧
      Reads q (isFirst && xs.isEmpty) ys rest := by
  constructor
  · rintro ⟨⟩
    exact ⟨_, _, rfl, ‹_›, ‹_›⟩
  · rintro ⟨xs, ys, rfl, before, after⟩
    exact .seq before after

theorem reads_alt_iff :
    Reads (.alt p q) isFirst cs rest ↔ Reads p isFirst cs rest ∨ Reads q isFirst cs rest := by
  constructor
  · intro h
    cases h with
    | left chosen => exact .inl chosen
    | right chosen => exact .inr chosen
  · rintro (chosen | chosen)
    · exact .left chosen
    · exact .right chosen

theorem nullable_iff (p : Pattern) (place : Place) :
    p.nullable place = true ↔ Reads p place.isFirst [] place.rest := by
  induction p with
  | empty => exact iff_of_true rfl .empty
  | one cls => simp [nullable, reads_one_iff]
  | atStart => simp [nullable, reads_atStart_iff]
  | atStop => simp [nullable, reads_atStop_iff]
  | seq p q ihp ihq =>
    rw [nullable, Bool.and_eq_true, ihp, ihq]
    constructor
    · rintro ⟨hp, hq⟩
      exact reads_seq_iff.mpr ⟨[], [], rfl, hp, by simpa using hq⟩
    · intro h
      obtain ⟨xs, ys, htext, hp, hq⟩ := reads_seq_iff.mp h
      obtain ⟨rfl, rfl⟩ := List.append_eq_nil_iff.mp htext.symm
      exact ⟨hp, by simpa using hq⟩
  | alt p q ihp ihq => rw [nullable, Bool.or_eq_true, ihp, ihq, reads_alt_iff]
  | star p ih => exact iff_of_true rfl .done

/-- The first character is taken by the first part, or by the second if the first takes nothing. -/
theorem reads_seq_cons_iff : Reads (.seq p q) isFirst (c :: cs) rest ↔
    (∃ xs ys, cs = xs ++ ys ∧ Reads p isFirst (c :: xs) (ys ++ rest) ∧ Reads q false ys rest) ∨
      Reads p isFirst [] (c :: (cs ++ rest)) ∧ Reads q isFirst (c :: cs) rest := by
  rw [reads_seq_iff]
  constructor
  · rintro ⟨xs, ys, htext, hp, hq⟩
    obtain ⟨rfl, rfl⟩ | ⟨xs, rfl, rfl⟩ := List.cons_eq_append_iff.mp htext
    · exact .inr ⟨hp, by simpa using hq⟩
    · exact .inl ⟨xs, ys, rfl, hp, by simpa using hq⟩
  · rintro (⟨xs, ys, rfl, hp, hq⟩ | ⟨hp, hq⟩)
    · exact ⟨c :: xs, ys, rfl, hp, by simpa using hq⟩
    · exact ⟨[], c :: cs, rfl, hp, by simpa using hq⟩

/-- The first character is taken by the first turn that takes anything. -/
theorem reads_star_cons_iff : Reads (.star p) isFirst (c :: cs) rest ↔
    ∃ xs ys, cs = xs ++ ys ∧ Reads p isFirst (c :: xs) (ys ++ rest) ∧ Reads (.star p) false ys rest := by
  constructor
  · intro h
    -- a turn that takes nothing leaves its place, so that the next one takes its part
    generalize hstar : Pattern.star p = r, htext : c :: cs = text at h
    induction h with
    | done => exact nomatch htext
    | @again p' isFirst xs ys rest once more ihonce ihmore =>
      obtain rfl := Pattern.star.inj hstar
      cases xs with
      | nil =>
        rw [List.isEmpty_nil, Bool.and_true] at ihmore
        exact ihmore rfl htext
      | cons x xs =>
        obtain ⟨rfl, rfl⟩ := List.cons.inj htext
        rw [List.isEmpty_cons, Bool.and_false] at more
        exact ⟨xs, ys, rfl, once, more⟩
    | empty | one | atStart | atStop | seq | left | right => exact nomatch hstar
  · rintro ⟨xs, ys, rfl, once, more⟩
    exact @Reads.again p isFirst (c :: xs) ys rest once (by simpa using more)

theorem reads_map_seq_iff {ps : List Pattern} :
    (∃ r ∈ ps.map (seq · q), Reads r false cs rest) ↔
      ∃ xs ys, cs = xs ++ ys ∧ (∃ r ∈ ps, Reads r false xs (ys ++ rest)) ∧ Reads q false ys rest := by
  constructor
  · rintro ⟨_, hmem, h⟩
    obtain ⟨r, hr, rfl⟩ := List.mem_map.mp hmem
    obtain ⟨xs, ys, rfl, before, after⟩ := reads_seq_iff.mp h
    exact ⟨xs, ys, rfl, ⟨r, hr, before⟩, by simpa using after⟩
  · rintro ⟨xs, ys, rfl, ⟨r, hr, before⟩, after⟩
    exact ⟨.seq r q, List.mem_map_of_mem hr, .seq before (by simpa using after)⟩

/-- The derivatives match what is left of a text once its first character is taken. -/
theorem reads_cons_iff : Reads p isFirst (c :: cs) rest ↔
    ∃ r ∈ p.derivatives ⟨isFirst, c :: (cs ++ rest)⟩ c, Reads r false cs rest := by
  induction p generalizing isFirst cs rest with
  | empty => simp [derivatives, reads_empty_iff]
  | one cls =>
    rw [derivatives, reads_one_iff]
    by_cases hc : cls.covers c = true
    · simp only [hc, ↓reduceIte, List.mem_singleton, exists_eq_left, reads_empty_iff]
      exact ⟨fun ⟨d, htext, _⟩ => (List.cons.inj htext).2, fun h => ⟨c, by rw [h], hc⟩⟩
    · simp only [hc, Bool.false_eq_true, ↓reduceIte, List.not_mem_nil, false_and, exists_false,
        iff_false]
      rintro ⟨d, htext, hd⟩
      exact hc ((List.cons.inj htext).1 ▸ hd)
  | atStart => simp [derivatives, reads_atStart_iff]
  | atStop => simp [derivatives, reads_atStop_iff]
  | seq p q ihp ihq =>
    simp only [derivatives, List.mem_append, or_and_right, exists_or, reads_map_seq_iff,
      reads_seq_cons_iff]
    refine or_congr (exists_congr fun xs => exists_congr fun ys => and_congr_right fun htext => ?_) ?_
    · rw [ihp, htext, List.append_assoc]
    · rw [← nullable_iff p ⟨isFirst, c :: (cs ++ rest)⟩, ihq]
      split <;> simp [*]
  | alt p q ihp ihq =>
    simp only [derivatives, reads_alt_iff, ihp, ihq, List.mem_append, or_and_right, exists_or]
  | star p ih =>
    simp only [derivatives, reads_map_seq_iff, reads_star_cons_iff]
    refine exists_congr fun xs => exists_congr fun ys => and_congr_right fun htext => ?_
    rw [ih, htext, List.append_assoc]

theorem anyMatches_iff {ps : List Pattern} :
    anyMatches isFirst ps cs = true ↔ ∃ p ∈ ps, Reads p isFirst cs [] := by
  induction cs generalizing isFirst ps with
  | nil => simp only [anyMatches, List.any_eq_true, nullable_iff]
  | cons c cs ih =>
    rw [anyMatches, ih]
    simp only [List.mem_eraseDups, List.mem_flatMap, reads_cons_iff, List.append_nil]
    constructor
    · rintro ⟨r, ⟨p, hp, hr⟩, h⟩
      exact ⟨p, hp, r, hr, h⟩
    · rintro ⟨p, hp, r, hr, h⟩
      exact ⟨r, ⟨p, hp, hr⟩, h⟩

/-- A text is matched as a whole exactly if the pattern reads it from end to end. -/
theorem matchesAll_iff (p : Pattern) (s : String) :
    p.matchesAll s = true ↔ Reads p true s.toList [] := by
  rw [matchesAll, anyMatches_iff]
  simp

/-- The pattern stands for these texts, wherever they are. -/
def Denotes (p : Pattern) (texts : List Char → Prop) : Prop :=
  ∀ isFirst cs rest, Reads p isFirst cs rest ↔ texts cs

variable {texts texts' : List Char → Prop} {α : Type} {f : α → List Char} {holds : α → Prop}

theorem Denotes.congr (h : Denotes p texts) (hsame : ∀ cs, texts cs ↔ texts' cs) : Denotes p texts' :=
  fun isFirst cs rest => (h isFirst cs rest).trans (hsame cs)

theorem denotes_one (cls : CharClass) :
    Denotes (.one cls) fun cs => ∃ c, cls.covers c = true ∧ cs = [c] := by
  intro isFirst cs rest
  rw [reads_one_iff]
  exact exists_congr fun c => and_comm

theorem Denotes.seq (hp : Denotes p texts) (hq : Denotes q texts') :
    Denotes (.seq p q) fun cs => ∃ xs ys, texts xs ∧ texts' ys ∧ cs = xs ++ ys := by
  intro isFirst cs rest
  rw [reads_seq_iff]
  refine exists_congr fun xs => exists_congr fun ys => ?_
  rw [hp, hq, and_rotate]

/-- A repetition stands for the texts that are put together from those of its pattern. -/
theorem Denotes.star (h : Denotes p fun cs => ∃ a, holds a ∧ cs = f a) :
    Denotes (.star p) fun cs => ∃ as : List α, (∀ a ∈ as, holds a) ∧ cs = as.flatMap f := by
  intro isFirst cs rest
  constructor
  · intro hreads
    generalize hstar : Pattern.star p = r at hreads
    induction hreads with
    | done => exact ⟨[], List.forall_mem_nil _, rfl⟩
    | @again p' isFirst xs ys rest once more ihonce ihmore =>
      obtain rfl := Pattern.star.inj hstar
      obtain ⟨a, ha, rfl⟩ := (h _ _ _).mp once
      obtain ⟨as, has, rfl⟩ := ihmore rfl
      exact ⟨a :: as, List.forall_mem_cons.mpr ⟨ha, has⟩, List.flatMap_cons.symm⟩
    | empty | one | atStart | atStop | seq | left | right => exact nomatch hstar
  · rintro ⟨as, has, rfl⟩
    induction as generalizing isFirst with
    | nil => exact .done
    | cons a as ih =>
      obtain ⟨ha, has⟩ := List.forall_mem_cons.mp has
      rw [List.flatMap_cons]
      exact .again ((h _ _ _).mpr ⟨a, ha, rfl⟩) (ih _ has)

/-- One character or more, all of the class. -/
theorem denotes_plus_one (cls : CharClass) :
    Denotes (.plus (.one cls)) fun cs => cs ≠ [] ∧ ∀ c ∈ cs, cls.covers c = true := by
  refine ((denotes_one cls).seq (denotes_one cls).star).congr fun cs => ?_
  simp only [List.flatMap_singleton']
  constructor
  · rintro ⟨-, ys, ⟨c, hc, rfl⟩, ⟨cs, hcs, rfl⟩, rfl⟩
    exact ⟨nofun, List.forall_mem_cons.mpr ⟨hc, hcs⟩⟩
  · rintro ⟨hne, hall⟩
    obtain ⟨c, cs, rfl⟩ := List.exists_cons_of_ne_nil hne
    obtain ⟨hc, hcs⟩ := List.forall_mem_cons.mp hall
    exact ⟨[c], cs, ⟨c, hc, rfl⟩, ⟨cs, hcs, rfl⟩, rfl⟩

theorem denotes_char (c : Char) : Denotes (char c) (· = [c]) :=
  (denotes_one (.single c)).congr fun cs => by simp

/-- A text that is written out stands for itself, whether its characters are put behind one another from
the right or, behind another pattern, from the left. -/
theorem denotes_literal (text : List Char) : Denotes (literal text) (· = text) := by
  induction text with
  | nil => exact fun _ _ _ => reads_empty_iff
  | cons c text ih => exact ((denotes_char c).seq ih).congr fun cs => by simp

theorem Denotes.foldl_seq (h : Denotes p (· = text)) (more : List Char) :
    Denotes ((more.map char).foldl .seq p) (· = text ++ more) := by
  induction more generalizing p text with
  | nil => simpa using h
  | cons c more ih =>
    rw [List.append_cons]
    exact ih ((h.seq (denotes_char c)).congr fun cs => by simp)

end BitcodeWrapper.Pattern
