import BitcodeWrapper.Text.Blank
import BitcodeWrapper.Text.Word

/-!
Patterns over text and their matching as a whole. A pattern is run by its partial derivatives: the
finitely many patterns that remain to be matched after one character.
-/
namespace BitcodeWrapper

/-- What a character class lists. -/
inductive ClassItem where
  | range (first last : Char)
  | word (isNegated : Bool)
  | blank (isNegated : Bool)
  deriving Repr, DecidableEq

def ClassItem.covers (c : Char) : ClassItem → Bool
  | .range first last => first ≤ c && c ≤ last
  | .word isNegated => Text.isWord c != isNegated
  | .blank isNegated => Text.isBlank c != isNegated

structure CharClass where
  isNegated : Bool
  items : List ClassItem
  deriving Repr, DecidableEq

namespace CharClass

def covers (cls : CharClass) (c : Char) : Bool :=
  cls.items.any (·.covers c) != cls.isNegated

def single (c : Char) : CharClass := ⟨false, [.range c c]⟩

/-- Every character but the newline. -/
def anyInLine : CharClass := ⟨true, [.range '\n' '\n']⟩

@[simp] theorem covers_single (c d : Char) : (single c).covers d = (d == c) := by
  simp only [single, covers, List.any_cons, List.any_nil, ClassItem.covers, Bool.or_false,
    Bool.bne_false]
  rw [Bool.eq_iff_iff]
  simp only [Bool.and_eq_true, decide_eq_true_eq, beq_iff_eq]
  constructor
  · intro h; exact Char.le_antisymm h.2 h.1
  · rintro rfl; exact ⟨Char.le_refl _, Char.le_refl _⟩

end CharClass

inductive Pattern where
  | empty
  | one (cls : CharClass)
  | atStart
  | atStop
  | seq (p q : Pattern)
  | alt (p q : Pattern)
  | star (p : Pattern)
  deriving Repr, DecidableEq

namespace Pattern

def char (c : Char) : Pattern := one (.single c)

def literal : List Char → Pattern
  | [] => empty
  | c :: cs => seq (char c) (literal cs)

def plus (p : Pattern) : Pattern := seq p (star p)

def option (p : Pattern) : Pattern := alt p empty

def power (p : Pattern) : Nat → Pattern
  | 0 => empty
  | n + 1 => seq p (power p n)

def upTo (p : Pattern) : Nat → Pattern
  | 0 => empty
  | n + 1 => option (seq p (upTo p n))

/-- A place in a text: whether nothing stands before it, and all that stands after it. -/
structure Place where
  isFirst : Bool
  rest : List Char

/-- The stop holds at the end, and also before a newline that ends the text. -/
def Place.isStop (place : Place) : Bool :=
  place.rest == [] || place.rest == ['\n']

/-- Says whether the pattern matches the empty text at a place. -/
def nullable (place : Place) : Pattern → Bool
  | empty => true
  | one _ => false
  | atStart => place.isFirst
  | atStop => place.isStop
  | seq p q => p.nullable place && q.nullable place
  | alt p q => p.nullable place || q.nullable place
  | star _ => true

/-- What remains to be matched once `c`, the character after the place, is taken. -/
def derivatives (place : Place) (c : Char) : Pattern → List Pattern
  | empty => []
  | one cls => if cls.covers c then [empty] else []
  | atStart => []
  | atStop => []
  | seq p q =>
    (p.derivatives place c).map (seq · q) ++
      if p.nullable place then q.derivatives place c else []
  | alt p q => p.derivatives place c ++ q.derivatives place c
  | star p => (p.derivatives place c).map (seq · (star p))

def anyMatches (isFirst : Bool) : List Pattern → List Char → Bool
  | ps, [] => ps.any (·.nullable ⟨isFirst, []⟩)
  | ps, c :: cs =>
    anyMatches false (ps.flatMap (·.derivatives ⟨isFirst, c :: cs⟩ c)).eraseDups cs

def matchesAll (p : Pattern) (s : String) : Bool :=
  anyMatches true [p] s.toList

end Pattern

end BitcodeWrapper
