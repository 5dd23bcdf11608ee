/-!
Paths as text. A path is cut at its slashes; its last segment is its base name and what stands before
is its directory. The normal form has no empty, `.` or `..` segment where that can be avoided.
-/
namespace BitcodeWrapper.Path

def slash : Char := '/'

variable {α : Type} [DecidableEq α]

/-- The segments between the marks; there is always at least one. -/
def cutAt (mark : α) : List α → List (List α)
  | [] => [[]]
  | c :: cs =>
    if c = mark then [] :: cutAt mark cs
    else match cutAt mark cs with
      | [] => [[c]]
      | s :: ss => (c :: s) :: ss

/-- The segments between the slashes. -/
def segments (cs : List Char) : List (List Char) := cutAt slash cs

def joined (ss : List (List Char)) : List Char :=
  List.intercalate [slash] ss

/-- All up to the last slash and with it. -/
def headChars (cs : List Char) : List Char :=
  (cs.reverse.dropWhile (· != slash)).reverse

def baseChars (cs : List Char) : List Char :=
  (cs.reverse.takeWhile (· != slash)).reverse

theorem headChars_append_baseChars (cs : List Char) : headChars cs ++ baseChars cs = cs := by
  rw [headChars, baseChars, ← List.reverse_append, List.takeWhile_append_dropWhile,
    List.reverse_reverse]

def dropTrailing (c : Char) (cs : List Char) : List Char :=
  (cs.reverse.dropWhile (· == c)).reverse

/-- The directory part loses its trailing slashes unless it is made of slashes alone. -/
def directoryChars (cs : List Char) : List Char :=
  let head := headChars cs
  if head.all (· == slash) then head else dropTrailing slash head

def joinChars (a b : List Char) : List Char :=
  if b.head? = some slash then b
  else if a = [] || a.getLast? = some slash then a ++ b
  else a ++ slash :: b

def isAbsoluteChars (cs : List Char) : Bool :=
  cs.head? == some slash

/-- Two leading slashes are kept; more of them count as one. -/
def rootSlashes : List Char → Nat
  | '/' :: '/' :: '/' :: _ => 1
  | '/' :: '/' :: _ => 2
  | '/' :: _ => 1
  | _ => 0

/-- Lays a segment on those settled so far, the last one first. -/
def settle (dot : α) (isRooted : Bool) (settled : List (List α)) (s : List α) : List (List α) :=
  if s = [] || s = [dot] then settled
  else if s != [dot, dot] then s :: settled
  else match settled with
    | [] => if isRooted then [] else [s]
    | t :: rest => if t = [dot, dot] then s :: t :: rest else rest

def normalSegments (dot : α) (isRooted : Bool) (ss : List (List α)) : List (List α) :=
  (ss.foldl (settle dot isRooted) []).reverse

def normalChars (cs : List Char) : List Char :=
  let slashes := rootSlashes cs
  let all := List.replicate slashes slash ++ joined (normalSegments '.' (0 < slashes) (segments cs))
  if all = [] then ['.'] else all

def base (path : String) : String := String.ofList (baseChars path.toList)

def directory (path : String) : String := String.ofList (directoryChars path.toList)

def join (a b : String) : String := String.ofList (joinChars a.toList b.toList)

def isAbsolute (path : String) : Bool := isAbsoluteChars path.toList

def normal (path : String) : String := String.ofList (normalChars path.toList)

/-- The segments that name something; empty ones and the dot name nothing. -/
def names (path : String) : List String :=
  (segments path.toList).map String.ofList

/-- An absolute path in normal form: a slash or two, then plain segments. -/
def IsNormal (path : String) : Prop :=
  ∃ (slashes : Nat) (ss : List (List Char)), (slashes = 1 ∨ slashes = 2) ∧
    path.toList = List.replicate slashes slash ++ joined ss ∧
    ∀ s ∈ ss, s ≠ [] ∧ s ≠ ['.'] ∧ s ≠ ['.', '.'] ∧ slash ∉ s

end BitcodeWrapper.Path
