import BitcodeWrapper.Text.Quoted

/-!
Text that was written with escapes. Besides characters it may hold lone surrogates, numbers that no
character has. Some of them stand for bytes that are no text, and the others cannot be passed on at all.
-/
namespace BitcodeWrapper

/-- A character, or a lone surrogate by its distance from the first one. -/
inductive Text.Point where
  | char (c : Char)
  | lone (n : Fin 0x800)
  deriving Repr, DecidableEq

namespace Text.Point

def firstLone : Nat := 0xd800

/-- The point of a number that is not beyond the last character. -/
def ofNat (n : Nat) : Point :=
  if h : firstLone ≤ n ∧ n < firstLone + 0x800 then
    .lone ⟨n - firstLone, Nat.sub_lt_left_of_lt_add h.1 h.2⟩
  else .char (Char.ofNat n)

def char? : Point → Option Char
  | char c => some c
  | lone _ => none

/-- The bytes that are passed on for a point. A lone surrogate from U+DC80 to U+DCFF is what a byte from
0x80 to 0xff was read as; the others have none. -/
def bytes? : Point → Option Bytes
  | char c => some (String.utf8EncodeChar c)
  | lone n =>
    if 0x480 ≤ n.val && n.val < 0x500 then some [UInt8.ofNat (n.val - 0x400)] else none

/-- A lone surrogate as it is shown. -/
def escape (n : Fin 0x800) : List Char :=
  [backslash, 'u'] ++ hexDigits 4 (firstLone + n.val)

def shown : Point → List Char
  | char c => [c]
  | lone n => escape n

def quoted (quote : Char) : Point → List Char
  | char c => quotedChar quote c
  | lone n => escape n

end Text.Point

/-- Text that may hold lone surrogates. -/
structure LooseText where
  points : List Text.Point
  deriving Repr, DecidableEq

namespace LooseText
open Text

def ofString (s : String) : LooseText := ⟨s.toList.map .char⟩

instance : Coe String LooseText := ⟨ofString⟩

instance : Append LooseText := ⟨fun a b => ⟨a.points ++ b.points⟩⟩

/-- The text as a plain one, if it holds no lone surrogate. -/
def plain? (t : LooseText) : Option String :=
  (t.points.mapM Point.char?).map String.ofList

def isPlain (t : LooseText) : Bool := t.plain?.isSome

/-- Says whether there are bytes for every point. -/
def isEncodable (t : LooseText) : Bool := t.points.all (·.bytes?.isSome)

/-- The text with lone surrogates written as escapes, as diagnostics have it. -/
def shown (t : LooseText) : String := String.ofList (t.points.flatMap Point.shown)

def quoted (t : LooseText) : String :=
  let quote := quoteFor (t.points.contains (.char apostrophe)) (t.points.contains (.char doubleQuote))
  String.ofList (quote :: t.points.flatMap (Point.quoted quote) ++ [quote])

def hasNul (t : LooseText) : Bool := t.points.contains (.char '\x00')

def isPassable (t : LooseText) : Bool := t.isEncodable && !t.hasNul

/-- The bytes that the system is given of a text. What has no bytes becomes a NUL, which it refuses. -/
def bytes (t : LooseText) : Bytes := t.points.flatMap fun p => p.bytes?.getD [0]

/-- The text that the system reads a text as, if its bytes are one. -/
def received? (t : LooseText) : Option String :=
  if t.isEncodable then Utf8.decode? t.bytes else none

/-- The text that a command is given. Bytes that are no text are replaced. -/
def handed (t : LooseText) : String := Utf8.decodeLossy t.bytes

def intercalate (separator : LooseText) (ts : List LooseText) : LooseText :=
  ⟨List.intercalate separator.points (ts.map points)⟩

theorem mapM_char?_eq_some_iff {ps : List Point} {cs : List Char} :
    ps.mapM Point.char? = some cs ↔ ps = cs.map .char := by
  induction ps generalizing cs with
  | nil => cases cs <;> simp
  | cons p ps ih =>
    cases p with
    | lone n => cases cs <;> simp [List.mapM_cons, Point.char?]
    | char c => cases cs <;> simp [List.mapM_cons, Point.char?, Option.bind_eq_some_iff, ih, and_left_comm]

theorem plain?_eq_some_iff {t : LooseText} {s : String} : t.plain? = some s ↔ t = s := by
  obtain ⟨ps⟩ := t
  rw [plain?, Option.map_eq_some_iff, ofString, mk.injEq]
  simp only [mapM_char?_eq_some_iff, ← String.toList_inj, String.toList_ofList]
  exact ⟨fun ⟨cs, hcs, hs⟩ => hs ▸ hcs, fun hps => ⟨s.toList, hps, rfl⟩⟩

@[simp] theorem plain?_ofString (s : String) : (s : LooseText).plain? = some s := plain?_eq_some_iff.mpr rfl

@[simp] theorem shown_ofString (s : String) : (s : LooseText).shown = s := by
  simp [shown, ofString, List.flatMap_map, Point.shown]

theorem ofString_injective {s t : String} (h : (s : LooseText) = t) : s = t := by
  have hplain := congrArg plain? h
  simpa using hplain

end LooseText

end BitcodeWrapper
