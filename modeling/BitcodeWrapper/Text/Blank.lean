/-!
Blank characters of every script, and text with its blanks taken off both ends.
-/
namespace BitcodeWrapper.Text

/-- Blanks include the four information separators and the next-line control. -/
def isBlank (c : Char) : Bool :=
  let n := c.toNat
  (9 ≤ n && n ≤ 13) || (28 ≤ n && n ≤ 32) || n == 0x85 || n == 0xa0 || n == 0x1680 ||
    (0x2000 ≤ n && n ≤ 0x200a) || n == 0x2028 || n == 0x2029 || n == 0x202f || n == 0x205f ||
    n == 0x3000

theorem isBlank_of_isWhitespace {c : Char} (h : c.isWhitespace = true) : isBlank c = true := by
  simp only [Char.isWhitespace, Bool.or_eq_true, decide_eq_true_eq] at h
  rcases h with ((rfl | rfl) | rfl) | rfl <;> rfl

def stripBlanks (cs : List Char) : List Char :=
  ((cs.dropWhile isBlank).reverse.dropWhile isBlank).reverse

def strip (s : String) : String :=
  String.ofList (stripBlanks s.toList)

/-- Says whether nothing is left of a text once its blanks are taken off. -/
def isAllBlank (s : String) : Bool :=
  s.toList.all isBlank

/-- The characters that end a line of text; a carriage return and a newline together end one line. -/
def endsLine (c : Char) : Bool :=
  let n := c.toNat
  (10 ≤ n && n ≤ 13) || (28 ≤ n && n ≤ 30) || n == 0x85 || n == 0x2028 || n == 0x2029

/-- Cuts text after each line end, which stays with its line. -/
def linesWithEnds : List Char → List (List Char)
  | [] => []
  | '\r' :: '\n' :: cs => ['\r', '\n'] :: linesWithEnds cs
  | c :: cs =>
    if endsLine c then [c] :: linesWithEnds cs
    else match linesWithEnds cs with
      | [] => [[c]]
      | line :: lines => (c :: line) :: lines

theorem flatten_linesWithEnds (cs : List Char) : (linesWithEnds cs).flatten = cs := by
  fun_induction linesWithEnds cs <;> simp_all

end BitcodeWrapper.Text
