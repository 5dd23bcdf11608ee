import BitcodeWrapper.Text.Utf8
import Mathlib.Data.List.Basic

/-! Which bytes are text. Well-formed bytes are said by the sequences of single characters, apart from the
machine that reads them and from the printer. The reader finds the characters of well-formed bytes, and an
ill-formed piece in all others. -/
namespace BitcodeWrapper.Text.Utf8

variable {bytes tail : Bytes} {p : Pending} {a b c d : UInt8} {char : Char} {s : String}

/-- A byte that goes on with a character. -/
def IsFurther (b : UInt8) : Prop := 0x80 ≤ b.toNat ∧ b.toNat ≤ 0xbf

/-- The bytes of one character, by their number. Overlong forms, surrogates and what lies beyond the last
character have none. -/
inductive IsSequence : Bytes → Prop
  | one {a : UInt8} (first : a.toNat ≤ 0x7f) : IsSequence [a]
  | two {a b : UInt8} (first : 0xc2 ≤ a.toNat ∧ a.toNat ≤ 0xdf) (second : IsFurther b) : IsSequence [a, b]
  | three {a b c : UInt8} (first : 0xe0 ≤ a.toNat ∧ a.toNat ≤ 0xef) (second : IsFurther b)
      (third : IsFurther c) (notOverlong : a.toNat = 0xe0 → 0xa0 ≤ b.toNat)
      (noSurrogate : a.toNat = 0xed → b.toNat ≤ 0x9f) : IsSequence [a, b, c]
  | four {a b c d : UInt8} (first : 0xf0 ≤ a.toNat ∧ a.toNat ≤ 0xf4) (second : IsFurther b)
      (third : IsFurther c) (fourth : IsFurther d) (notOverlong : a.toNat = 0xf0 → 0x90 ≤ b.toNat)
      (notBeyond : a.toNat = 0xf4 → b.toNat ≤ 0x8f) : IsSequence [a, b, c, d]

/-- Sequences one after the other. -/
inductive IsWellFormed : Bytes → Prop
  | nil : IsWellFormed []
  | append {first rest : Bytes} (isSequence : IsSequence first) (others : IsWellFormed rest) :
      IsWellFormed (first ++ rest)

theorem encode_append (a b : String) : encode (a ++ b) = encode a ++ encode b := by
  simp only [encode, String.toList_append, List.flatMap_append]

/-- The printer writes sequences. -/
theorem isSequence_utf8EncodeChar (char : Char) : IsSequence (String.utf8EncodeChar char) := by
  have hvalid : char.val.toNat < 0xd800 ∨ 0xdfff < char.val.toNat ∧ char.val.toNat < 0x110000 := char.valid
  simp only [String.utf8EncodeChar]
  generalize char.val.toNat = v at hvalid
  split
  · exact .one (by rw [UInt8.toNat_ofNat']; omega)
  split
  · refine .two ?_ ?_ <;> simp only [IsFurther, UInt8.toNat_ofNat'] <;> omega
  split
  · refine .three ?_ ?_ ?_ ?_ ?_ <;> simp only [IsFurther, UInt8.toNat_ofNat'] <;> omega
  · refine .four ?_ ?_ ?_ ?_ ?_ ?_ <;> simp only [IsFurther, UInt8.toNat_ofNat'] <;> omega

theorem isWellFormed_encode (s : String) : IsWellFormed (encode s) := by
  rw [encode]
  generalize s.toList = chars
  induction chars with
  | nil => exact .nil
  | cons char chars ih =>
    rw [List.flatMap_cons]
    exact .append (isSequence_utf8EncodeChar char) ih

/-- The bits of a character so far and those of one more byte. -/
def withBits (value : Nat) (b : UInt8) : Nat := value * 64 + (b.toNat - 0x80)

/-- These bytes make a character of an unfinished one. -/
inductive Completes : Pending → Bytes → Char → Prop
  | last {p : Pending} {b : UInt8} (missing : p.missing ≤ 1)
      (inRange : p.low ≤ b.toNat ∧ b.toNat ≤ p.high) :
      Completes p [b] (Char.ofNat (withBits p.value b))
  | next {p : Pending} {b : UInt8} {tail : Bytes} {char : Char} {k : Nat} (missing : p.missing = k + 2)
      (inRange : p.low ≤ b.toNat ∧ b.toNat ≤ p.high)
      (rest : Completes ⟨withBits p.value b, k + 1, 0x80, 0xbf⟩ tail char) :
      Completes p (b :: tail) char

theorem completes_one_iff {value low high : Nat} : Completes ⟨value, 1, low, high⟩ tail char ↔
    ∃ b : UInt8, (low ≤ b.toNat ∧ b.toNat ≤ high) ∧ tail = [b] ∧
      Char.ofNat (withBits value b) = char := by
  constructor
  · intro hc
    cases hc with
    | last missing inRange => exact ⟨_, inRange, rfl, rfl⟩
    | next missing => exact absurd missing (by simp)
  · rintro ⟨b, inRange, rfl, rfl⟩
    exact .last (Nat.le_refl 1) inRange

theorem completes_succ_iff {value low high k : Nat} : Completes ⟨value, k + 2, low, high⟩ tail char ↔
    ∃ (b : UInt8) (rest : Bytes), (low ≤ b.toNat ∧ b.toNat ≤ high) ∧ tail = b :: rest ∧
      Completes ⟨withBits value b, k + 1, 0x80, 0xbf⟩ rest char := by
  constructor
  · intro hc
    cases hc with
    | last missing => exact absurd missing (by simp)
    | next missing inRange rest =>
      obtain rfl := Nat.add_right_cancel missing
      exact ⟨_, _, inRange, rfl, rest⟩
  · rintro ⟨b, rest, inRange, rfl, hrest⟩
    exact .next rfl inRange hrest

/-- A byte in the range is taken. -/
theorem feed_of_inRange (inRange : p.low ≤ b.toNat ∧ b.toNat ≤ p.high) : feed b (some p) =
    match p.missing with
    | 0 | 1 => ([some (Char.ofNat (withBits p.value b))], none)
    | k + 1 => ([], some ⟨withBits p.value b, k, 0x80, 0xbf⟩) := by
  rw [feed, if_pos (by simpa using inRange)]
  rfl

theorem Completes.piecesFrom_append (hc : Completes p tail char) (rest : Bytes) :
    piecesFrom (some p) (tail ++ rest) = some char :: pieces rest := by
  induction hc with
  | @last p b missing inRange =>
    rw [List.singleton_append, piecesFrom, feed_of_inRange inRange]
    obtain hmissing | hmissing := Nat.le_one_iff_eq_zero_or_eq_one.mp missing <;> rw [hmissing] <;> rfl
  | next missing inRange rest ih =>
    rw [List.cons_append, piecesFrom, feed_of_inRange inRange, missing]
    exact ih

/-- An unfinished character is completed, or it is an ill-formed piece. -/
theorem completes_or_none (p : Pending) (bytes : Bytes) :
    (∃ tail rest char, bytes = tail ++ rest ∧ Completes p tail char) ∨
      ∃ others, piecesFrom (some p) bytes = none :: others := by
  induction bytes generalizing p with
  | nil => exact .inr ⟨[], rfl⟩
  | cons b bytes ih =>
    by_cases inRange : p.low ≤ b.toNat ∧ b.toNat ≤ p.high
    · rcases hmissing : p.missing with _ | _ | k
      · exact .inl ⟨[b], bytes, _, rfl, .last (by omega) inRange⟩
      · exact .inl ⟨[b], bytes, _, rfl, .last (by omega) inRange⟩
      · obtain ⟨tail, rest, char, rfl, hc⟩ | ⟨others, hnone⟩ :=
          ih ⟨withBits p.value b, k + 1, 0x80, 0xbf⟩
        · exact .inl ⟨b :: tail, rest, char, rfl, .next hmissing inRange hc⟩
        · refine .inr ⟨others, ?_⟩
          rw [piecesFrom, feed_of_inRange inRange, hmissing]
          exact hnone
    · refine .inr ⟨(startPiece b).1 ++ piecesFrom (startPiece b).2 bytes, ?_⟩
      rw [piecesFrom, feed, if_neg (by simpa using inRange)]
      rfl

/-- What the first byte of a piece begins. The range of the second one depends on the first. -/
inductive Begins (a : UInt8) : List Piece × Option Pending → Prop
  | one (first : a.toNat ≤ 0x7f) : Begins a ([some (Char.ofNat a.toNat)], none)
  | two {value : Nat} (first : 0xc2 ≤ a.toNat ∧ a.toNat ≤ 0xdf) (holds : value = a.toNat - 0xc0) :
      Begins a ([], some ⟨value, 1, 0x80, 0xbf⟩)
  | three {value low high : Nat} (first : 0xe0 ≤ a.toNat ∧ a.toNat ≤ 0xef)
      (holds : value = a.toNat - 0xe0) (lowest : low = if a.toNat = 0xe0 then 0xa0 else 0x80)
      (highest : high = if a.toNat = 0xed then 0x9f else 0xbf) : Begins a ([], some ⟨value, 2, low, high⟩)
  | four {value low high : Nat} (first : 0xf0 ≤ a.toNat ∧ a.toNat ≤ 0xf4)
      (holds : value = a.toNat - 0xf0) (lowest : low = if a.toNat = 0xf0 then 0x90 else 0x80)
      (highest : high = if a.toNat = 0xf4 then 0x8f else 0xbf) : Begins a ([], some ⟨value, 3, low, high⟩)
  | none (first : 0x80 ≤ a.toNat ∧ a.toNat ≤ 0xc1 ∨ 0xf5 ≤ a.toNat) : Begins a ([none], none)

theorem begins_startPiece (a : UInt8) : Begins a (startPiece a) := by
  simp only [startPiece, Bool.and_eq_true, decide_eq_true_eq, beq_iff_eq]
  split
  · exact .one (by omega)
  split
  · exact .two ‹_› rfl
  iterate 3
    split
    · exact .three (by omega) (by omega) (by split <;> omega) (by split <;> omega)
  iterate 3
    split
    · exact .four (by omega) (by omega) (by split <;> omega) (by split <;> omega)
  · exact .none (by omega)

theorem val_ofNat {n : Nat} (hvalid : n.isValidChar) : (Char.ofNat n).val.toNat = n := by
  rw [Char.ofNat, dif_pos hvalid]
  rfl

section print
variable (hb : IsFurther b) (hc : IsFurther c) (hd : IsFurther d)
include hb

theorem utf8EncodeChar_two (ha : 0xc2 ≤ a.toNat ∧ a.toNat ≤ 0xdf) :
    String.utf8EncodeChar (Char.ofNat (withBits (a.toNat - 0xc0) b)) = [a, b] := by
  obtain ⟨hb, hb'⟩ := hb
  generalize hv : withBits (a.toNat - 0xc0) b = v
  unfold withBits at hv
  have hvalid : v.isValidChar := .inl (by omega)
  simp only [String.utf8EncodeChar, val_ofNat hvalid]
  rw [if_neg (by omega), if_pos (by omega)]
  simp only [List.cons.injEq, ← UInt8.toNat_inj, UInt8.toNat_ofNat', and_true]
  omega

include hc

theorem utf8EncodeChar_three (ha : 0xe0 ≤ a.toNat ∧ a.toNat ≤ 0xef)
    (notOverlong : a.toNat = 0xe0 → 0xa0 ≤ b.toNat) (noSurrogate : a.toNat = 0xed → b.toNat ≤ 0x9f) :
    String.utf8EncodeChar (Char.ofNat (withBits (withBits (a.toNat - 0xe0) b) c)) =
      [a, b, c] := by
  obtain ⟨⟨hb, hb'⟩, hc, hc'⟩ := And.intro hb hc
  generalize hv : withBits (withBits (a.toNat - 0xe0) b) c = v
  unfold withBits at hv
  have hvalid : v.isValidChar := by
    change v < 0xd800 ∨ 0xdfff < v ∧ v < 0x110000
    omega
  simp only [String.utf8EncodeChar, val_ofNat hvalid]
  rw [if_neg (by omega), if_neg (by omega), if_pos (by omega)]
  simp only [List.cons.injEq, ← UInt8.toNat_inj, UInt8.toNat_ofNat', and_true]
  omega

include hd

theorem utf8EncodeChar_four (ha : 0xf0 ≤ a.toNat ∧ a.toNat ≤ 0xf4)
    (notOverlong : a.toNat = 0xf0 → 0x90 ≤ b.toNat) (notBeyond : a.toNat = 0xf4 → b.toNat ≤ 0x8f) :
    String.utf8EncodeChar (Char.ofNat (withBits (withBits (withBits (a.toNat - 0xf0) b) c) d)) =
      [a, b, c, d] := by
  obtain ⟨⟨hb, hb'⟩, ⟨hc, hc'⟩, hd, hd'⟩ := And.intro hb (And.intro hc hd)
  generalize hv : withBits (withBits (withBits (a.toNat - 0xf0) b) c) d = v
  unfold withBits at hv
  have hvalid : v.isValidChar := by
    change v < 0xd800 ∨ 0xdfff < v ∧ v < 0x110000
    omega
  simp only [String.utf8EncodeChar, val_ofNat hvalid]
  rw [if_neg (by omega), if_neg (by omega), if_neg (by omega)]
  simp only [List.cons.injEq, ← UInt8.toNat_inj, UInt8.toNat_ofNat', and_true]
  omega

end print

/-- What the reader makes a character of is a sequence, and the one that is printed for it. -/
theorem printed_of_begins (hbegins : Begins a ([], some p)) (hc : Completes p tail char) :
    IsSequence (a :: tail) ∧ String.utf8EncodeChar char = a :: tail := by
  cases hbegins with
  | two first holds =>
    obtain ⟨b, second, rfl, rfl⟩ := completes_one_iff.mp hc
    exact ⟨.two first second, holds ▸ utf8EncodeChar_two second first⟩
  | three first holds lowest highest =>
    obtain ⟨b, rest, second, rfl, hrest⟩ := completes_succ_iff.mp hc
    obtain ⟨c, third, rfl, rfl⟩ := completes_one_iff.mp hrest
    have hfurther : IsFurther b := by
      constructor <;> split at lowest <;> split at highest <;> omega
    have notOverlong : a.toNat = 0xe0 → 0xa0 ≤ b.toNat := by
      intro ha
      rw [if_pos ha] at lowest
      omega
    have noSurrogate : a.toNat = 0xed → b.toNat ≤ 0x9f := by
      intro ha
      rw [if_pos ha] at highest
      omega
    exact ⟨.three first hfurther third notOverlong noSurrogate,
      holds ▸ utf8EncodeChar_three hfurther third first notOverlong noSurrogate⟩
  | four first holds lowest highest =>
    obtain ⟨b, rest, second, rfl, hrest⟩ := completes_succ_iff.mp hc
    obtain ⟨c, last, third, rfl, hlast⟩ := completes_succ_iff.mp hrest
    obtain ⟨d, fourth, rfl, rfl⟩ := completes_one_iff.mp hlast
    have hfurther : IsFurther b := by
      constructor <;> split at lowest <;> split at highest <;> omega
    have notOverlong : a.toNat = 0xf0 → 0x90 ≤ b.toNat := by
      intro ha
      rw [if_pos ha] at lowest
      omega
    have notBeyond : a.toNat = 0xf4 → b.toNat ≤ 0x8f := by
      intro ha
      rw [if_pos ha] at highest
      omega
    exact ⟨.four first hfurther third fourth notOverlong notBeyond,
      holds ▸ utf8EncodeChar_four hfurther third fourth first notOverlong notBeyond⟩

/-- The bytes after the first one of a sequence complete what that one begins. -/
theorem exists_completes_of_isSequence (hs : IsSequence (a :: b :: tail)) :
    ∃ p char, startPiece a = ([], some p) ∧ Completes p (b :: tail) char := by
  have hbegins := begins_startPiece a
  generalize startPiece a = start at hbegins
  cases hs with
  | two first second =>
    cases hbegins with
    | two => exact ⟨_, _, rfl, completes_one_iff.mpr ⟨b, second, rfl, rfl⟩⟩
    | one | three | four | none => omega
  | three first second third notOverlong noSurrogate =>
    cases hbegins with
    | three _ _ lowest highest =>
      obtain ⟨hlow, hhigh⟩ := second
      refine ⟨_, _, rfl, completes_succ_iff.mpr ⟨b, _, ⟨?_, ?_⟩, rfl,
        completes_one_iff.mpr ⟨_, third, rfl, rfl⟩⟩⟩
      · split at lowest <;> omega
      · split at highest <;> omega
    | one | two | four | none => omega
  | four first second third fourth notOverlong notBeyond =>
    cases hbegins with
    | four _ _ lowest highest =>
      obtain ⟨hlow, hhigh⟩ := second
      refine ⟨_, _, rfl, completes_succ_iff.mpr ⟨b, _, ⟨?_, ?_⟩, rfl,
        completes_succ_iff.mpr ⟨_, _, third, rfl, completes_one_iff.mpr ⟨_, fourth, rfl, rfl⟩⟩⟩⟩
      · split at lowest <;> omega
      · split at highest <;> omega
    | one | two | three | none => omega

/-- A sequence is read as the character that it is printed for. -/
theorem exists_char_of_isSequence (hs : IsSequence bytes) : ∃ char, String.utf8EncodeChar char = bytes ∧
    ∀ rest, pieces (bytes ++ rest) = some char :: pieces rest := by
  rcases bytes with _ | ⟨a, _ | ⟨b, tail⟩⟩
  · cases hs
  · obtain ⟨first⟩ := hs
    have hstart : startPiece a = ([some (Char.ofNat a.toNat)], none) := by
      have hbegins := begins_startPiece a
      generalize startPiece a = start at hbegins
      cases hbegins with
      | one => rfl
      | two | three | four | none => omega
    refine ⟨Char.ofNat a.toNat, ?_, fun rest => ?_⟩
    · simp [String.utf8EncodeChar, val_ofNat (.inl (show a.toNat < 0xd800 by omega)), first]
    · rw [List.singleton_append, pieces, piecesFrom, feed, hstart]
      rfl
  · obtain ⟨p, char, hstart, hc⟩ := exists_completes_of_isSequence hs
    refine ⟨char, (printed_of_begins (hstart ▸ begins_startPiece a) hc).2, fun rest => ?_⟩
    rw [List.cons_append, pieces, piecesFrom, feed, hstart]
    exact hc.piecesFrom_append rest

/-- Bytes begin with a sequence, or with an ill-formed piece. -/
theorem isSequence_or_none (a : UInt8) (bytes : Bytes) :
    (∃ first rest, a :: bytes = first ++ rest ∧ IsSequence first) ∨
      ∃ others, pieces (a :: bytes) = none :: others := by
  have hbegins := begins_startPiece a
  rw [pieces, piecesFrom, feed]
  generalize startPiece a = start at hbegins
  rcases start with ⟨found, _ | p⟩
  · cases hbegins with
    | one first => exact .inl ⟨[a], bytes, rfl, .one first⟩
    | none => exact .inr ⟨_, rfl⟩
  · obtain ⟨tail, rest, char, rfl, hc⟩ | ⟨others, hnone⟩ := completes_or_none p bytes
    · cases found with
      | nil => exact .inl ⟨a :: tail, rest, rfl, (printed_of_begins hbegins hc).1⟩
      | cons => cases hbegins
    · cases found with
      | nil => exact .inr ⟨others, hnone⟩
      | cons => cases hbegins

theorem eq_of_utf8EncodeChar_eq {char char' : Char}
    (h : String.utf8EncodeChar char = String.utf8EncodeChar char') : char = char' := by
  have hbytes : [char].utf8Encode = [char'].utf8Encode := by
    rw [List.utf8Encode_singleton, List.utf8Encode_singleton, h]
  have htext : String.ofList [char] = String.ofList [char'] := String.toByteArray_inj.mp hbytes
  exact List.singleton_inj.mp (String.ofList_inj.mp htext)

theorem pieces_encode (s : String) : pieces (encode s) = s.toList.map some := by
  rw [encode]
  induction s.toList with
  | nil => rfl
  | cons char chars ih =>
    obtain ⟨char', hprinted, hpieces⟩ := exists_char_of_isSequence (isSequence_utf8EncodeChar char)
    obtain rfl := eq_of_utf8EncodeChar_eq hprinted
    rw [List.flatMap_cons, hpieces, ih, List.map_cons]

/-- Well-formed bytes are those that are printed for some text. -/
theorem isWellFormed_iff : IsWellFormed bytes ↔ ∃ s, encode s = bytes := by
  constructor
  · intro hbytes
    induction hbytes with
    | nil => exact ⟨"", rfl⟩
    | append isSequence others ih =>
      obtain ⟨char, rfl, -⟩ := exists_char_of_isSequence isSequence
      obtain ⟨s, rfl⟩ := ih
      exact ⟨String.ofList (char :: s.toList), by simp [encode]⟩
  · rintro ⟨s, rfl⟩
    exact isWellFormed_encode s

/-- Bytes that are not well formed hold a piece that is not. -/
theorem none_mem_pieces (h : ¬ IsWellFormed bytes) : none ∈ pieces bytes := by
  induction hlength : bytes.length using Nat.strongRecOn generalizing bytes with
  | _ n ih =>
    rcases bytes with _ | ⟨a, bytes⟩
    · exact absurd .nil h
    obtain ⟨first, rest, hsplit, hs⟩ | ⟨others, hnone⟩ := isSequence_or_none a bytes
    · obtain ⟨char, -, hpieces⟩ := exists_char_of_isSequence hs
      have hne : 0 < first.length := by cases hs <;> simp
      have hrest : ¬ IsWellFormed rest := fun hrest => h (hsplit ▸ .append hs hrest)
      have hshort : rest.length < n := by
        rw [← hlength, hsplit, List.length_append]
        omega
      rw [hsplit, hpieces]
      exact List.mem_cons_of_mem _ (ih rest.length hshort hrest rfl)
    · rw [hnone]
      exact List.mem_cons_self

/-- What was printed is read back. -/
theorem decodeLossy_encode (s : String) : decodeLossy (encode s) = s := by
  have hkept : ((·.getD '\ufffd') ∘ some : Char → Char) = id := rfl
  rw [decodeLossy, pieces_encode, List.map_map, hkept, List.map_id, String.ofList_toList]

/-- The replacing reader loses nothing but what is ill formed. -/
theorem encode_decodeLossy_eq_iff : encode (decodeLossy bytes) = bytes ↔ IsWellFormed bytes := by
  constructor
  · intro h
    exact isWellFormed_iff.mpr ⟨_, h⟩
  · intro h
    obtain ⟨s, rfl⟩ := isWellFormed_iff.mp h
    rw [decodeLossy_encode]

/-- Something is put in the place of what is ill formed. -/
theorem replacement_mem_decodeLossy (h : ¬ IsWellFormed bytes) : '\ufffd' ∈ (decodeLossy bytes).toList := by
  rw [decodeLossy, String.toList_ofList]
  exact List.mem_map.mpr ⟨none, none_mem_pieces h, rfl⟩

theorem decode?_encode (s : String) : decode? (encode s) = some s := by
  have hall : ∀ chars : List Char, (chars.map some).mapM id = some chars := by
    intro chars
    induction chars with
    | nil => rfl
    | cons char chars ih => simp [ih]
  rw [decode?, pieces_encode, hall, Option.map_some, String.ofList_toList]

/-- The strict reader refuses what is not well formed, and nothing else. -/
theorem decode?_eq_none_iff : decode? bytes = none ↔ ¬ IsWellFormed bytes := by
  constructor
  · rintro hnone hbytes
    obtain ⟨s, rfl⟩ := isWellFormed_iff.mp hbytes
    exact nomatch hnone.symm.trans (decode?_encode s)
  · intro h
    have hnone : ∀ found : List Piece, none ∈ found → found.mapM id = none := by
      intro found hmem
      induction found with
      | nil => exact nomatch hmem
      | cons piece found ih =>
        cases piece with
        | none => rfl
        | some char => simp [ih (by simpa using hmem)]
    rw [decode?, hnone _ (none_mem_pieces h), Option.map_none]

theorem decode?_eq_some_iff : decode? bytes = some s ↔ encode s = bytes := by
  constructor
  · intro hsome
    have hbytes : IsWellFormed bytes := by
      by_contra hno
      exact nomatch hsome.symm.trans (decode?_eq_none_iff.mpr hno)
    obtain ⟨s', rfl⟩ := isWellFormed_iff.mp hbytes
    rw [Option.some.inj (hsome.symm.trans (decode?_encode s'))]
  · rintro rfl
    exact decode?_encode s

end BitcodeWrapper.Text.Utf8
