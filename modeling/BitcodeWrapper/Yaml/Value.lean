import BitcodeWrapper.Decimal.Integer
import BitcodeWrapper.Decimal.Shortest
import BitcodeWrapper.Text.Listing
import BitcodeWrapper.Text.Loose
import BitcodeWrapper.Yaml.Moment

/-!
The values of a document and their text. Collections are named by a number, so that one can stand inside
of itself. A text is its own text at the top and quoted inside of collections.
-/
namespace BitcodeWrapper.Yaml

inductive Value where
  | null
  | bool (b : Bool)
  | int (n : Int)
  | float (x : Float)
  /-- The number that is none. Each that is computed differs from all others. -/
  | notANumber (origin : Option Nat)
  | text (s : LooseText)
  | bytes (content : Bytes)
  | date (d : Date)
  | moment (m : Moment)
  /-- An item of a list of pairs, named by the list and the place in it. -/
  | pair (list index : Nat) (first second : Value)
  | collection (id : Nat)

inductive Collection where
  | list (items : List Value)
  | set (members : List Value)
  | mapping (entries : List (Value × Value))

structure Document where
  root : Value
  collections : Array (Option Collection)

namespace Value

/-- The numbers that values stand for; truth values are one and zero. -/
def number? : Value → Option (Int ⊕ Float)
  | bool b => some (.inl (if b then 1 else 0))
  | int n => some (.inl n)
  | float x => some (.inr x)
  | _ => none

/-- A finite number without its fraction. -/
def wholePart (x : Float) : Int :=
  let b := Decimal.binaryOfBits (x.toBits.toNat % Nat.pow 2 63)
  let magnitude : Int := b.significand * Nat.pow 2 b.exponent.toNat / Nat.pow 2 (-b.exponent).toNat
  if x < 0.0 then -magnitude else magnitude

/-- Compares exactly, without rounding the integer. -/
def isSameNumber : Int ⊕ Float → Int ⊕ Float → Bool
  | .inl m, .inl n => m == n
  | .inr x, .inr y => x == y
  | .inl n, .inr x | .inr x, .inl n =>
    x.isFinite && x.floor == x && wholePart x == n

/-- Says whether two values are one key. Collections cannot be keys. -/
def isSameKey (a b : Value) : Bool :=
  match a.number?, b.number? with
  | some m, some n => isSameNumber m n
  | none, none =>
    match a, b with
    | null, null => true
    | notANumber o, notANumber p => o == p
    | text s, text t => s == t
    | bytes s, bytes t => s == t
    | date d, date e => d == e
    | moment m, moment n => m.isSame n
    | _, _ => false
  | _, _ => false

def canBeKey : Value → Bool
  | pair .. | collection _ => false
  | _ => true

/-- A key that comes again keeps its place and takes the new value. -/
def put (key value : Value) : List (Value × Value) → List (Value × Value)
  | [] => [(key, value)]
  | (k, v) :: rest =>
    if k.isSameKey key then (k, value) :: rest else (k, v) :: put key value rest

/-- The value of a key that is a text; `null` if there is none. -/
def entry (entries : List (Value × Value)) (name : String) : Value :=
  ((entries.find? fun e => match e.1 with
    | text s => s = (name : LooseText)
    | _ => false).map (·.2)).getD null

end Value

namespace Collection

def isEmpty : Collection → Bool
  | list items => items.isEmpty
  | set members => members.isEmpty
  | mapping entries => entries.isEmpty

/-- What is written for a collection inside of itself. -/
def ellipsis : Collection → String
  | list _ => "[...]"
  | set _ => "set(...)"
  | mapping _ => "\x7b...\x7d"

end Collection

namespace Document

def collection (d : Document) (id : Nat) : Collection :=
  (d.collections[id]?.join).getD (.list [])

/-- Empty collections and texts, zeros, `null` and `false` count as nothing. -/
def isNothing (d : Document) : Value → Bool
  | .null => true
  | .bool b => !b
  | .int n => n = 0
  | .float x => x == 0.0
  | .text s => s.points.isEmpty
  | .bytes content => content.isEmpty
  | .collection id => (d.collection id).isEmpty
  | _ => false

/-- A collection or an item of a list of pairs, while its text is written. -/
structure Spot where
  id : Nat
  index : Option Nat
  deriving Repr, DecidableEq

/-- How deep collections may be nested that are written. -/
def writingLimit : Nat := 980

/-- The text of a value inside of the collections at `within`. A value with an integer of too many digits
has none, and neither has one that is nested too deep. -/
def shown? (d : Document) : (fuel : Nat) → (within : List Spot) → Value → Option String
  | 0, _, _ => none
  | fuel + 1, within, v =>
    if writingLimit < within.length then none
    else match v with
    | .null => some "None"
    | .bool b => some (Text.yesOrNo b)
    | .int n => Decimal.integerText? n
    | .float x => some (Decimal.floatText x)
    | .notANumber _ => some "nan"
    | .text s => some s.quoted
    | .bytes content => some (Text.quotedBytes content)
    | .date t => some t.shown
    | .moment t => some t.shown
    | .pair id index a b =>
      let spot : Spot := ⟨id, some index⟩
      if within.contains spot then some "(...)"
      else do return Text.tupled [← shown? d fuel (spot :: within) a, ← shown? d fuel (spot :: within) b]
    | .collection id =>
      let spot : Spot := ⟨id, none⟩
      let content := d.collection id
      if within.contains spot then some content.ellipsis
      else
        match content with
        | .list items => (items.mapM (shown? d fuel (spot :: within))).map Text.bracketed
        | .set [] => some "set()"
        | .set members =>
          (members.mapM (shown? d fuel (spot :: within))).map fun texts =>
            "\x7b" ++ Text.commaSeparated texts ++ "\x7d"
        | .mapping entries =>
          (entries.mapM fun (k, v) => do
            return (← shown? d fuel (spot :: within) k, ← shown? d fuel (spot :: within) v)).map
            Text.braced

/-- Collections and pairs take turns, and none is inside of itself. -/
def depth (d : Document) : Nat := 2 * d.collections.size + 3

/-- The text of a value on its own. -/
def text? (d : Document) : Value → Option LooseText
  | .text s => some s
  | .date t => some t.text
  | .moment t => some t.text
  | v => (d.shown? d.depth [] v).map LooseText.ofString

end Document

end BitcodeWrapper.Yaml
