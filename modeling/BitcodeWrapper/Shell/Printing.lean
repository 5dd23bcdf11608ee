import BitcodeWrapper.Decimal.Places
import BitcodeWrapper.Shell.Numeral
import BitcodeWrapper.Shell.Octets

/-!
What `echo` and `printf` print. Both read escapes after a backslash; octal ones name bytes. The texts
here have one character for each byte.
-/
namespace BitcodeWrapper.Shell.Printing

def octalDigits (limit : Nat) (cs : List Char) : List Char :=
  (cs.take limit).takeWhile fun c => '0' ≤ c && c ≤ '7'

def octalValue (cs : List Char) : Nat := cs.foldl (fun n c => n * 8 + (c.toNat - 48)) 0

def letterEscape? : Char → Option Nat
  | '\\' => some 92
  | 'a' => some 7
  | 'b' => some 8
  | 'e' => some 27
  | 'f' => some 12
  | 'n' => some 10
  | 'r' => some 13
  | 't' => some 9
  | 'v' => some 11
  | _ => none

/-- Reads what follows a backslash. An unknown escape leaves the backslash as it is. -/
def escape (cs : List Char) : Char × List Char :=
  let octal := octalDigits 3 cs
  if !octal.isEmpty then (Char.ofNat (octalValue octal % 256), cs.drop octal.length)
  else match cs with
    | [] => ('\\', [])
    | c :: rest =>
      match letterEscape? c with
      | some n => (Char.ofNat n, rest)
      | none => ('\\', cs)

/-- Reads escapes in an argument, where octal digits may have one more zero before them. Says also
whether all output ends here. -/
def unescape : (fuel : Nat) → List Char → List Char × Bool
  | 0, _ => ([], false)
  | _, [] => ([], false)
  | _ + 1, '\\' :: 'c' :: _ => ([], true)
  | fuel + 1, '\\' :: rest =>
    let rest := match rest with
      | '0' :: d :: more => if '0' ≤ d && d ≤ '7' then d :: more else rest
      | _ => rest
    let (c, rest) := escape rest
    let (more, ends) := unescape fuel rest
    (c :: more, ends)
  | fuel + 1, c :: rest =>
    let (more, ends) := unescape fuel rest
    (c :: more, ends)

def echoWords : List String → List Char × Bool
  | [] => ([], false)
  | [w] => unescape w.length w.toList
  | w :: ws =>
    let (cs, ends) := unescape w.length w.toList
    if ends then (cs, true)
    else
      let (more, ends) := echoWords ws
      (cs ++ ' ' :: more, ends)

def echo (args : List String) : String :=
  match args with
  | "-n" :: args => String.ofList (echoWords args).1
  | _ =>
    let (cs, ends) := echoWords args
    String.ofList (if ends then cs else cs ++ ['\n'])

structure Directive where
  /-- From the percent sign on. -/
  text : List Char
  flags : List Char
  width : Nat
  isLeftAligned : Bool
  precision : Option Nat
  conversion : Char

namespace Directive

def pad (d : Directive) (cs : List Char) : List Char :=
  let missing := List.replicate (d.width - cs.length) ' '
  if d.isLeftAligned then cs ++ missing else missing ++ cs

/-- Pads a number, with zeros after its sign if they are asked for. -/
def padNumber (d : Directive) (sign body : List Char) (mayFill : Bool) : List Char :=
  if mayFill && d.flags.contains '0' && !d.isLeftAligned then
    sign ++ List.replicate (d.width - sign.length - body.length) '0' ++ body
  else d.pad (sign ++ body)

def cut (d : Directive) (cs : List Char) : List Char :=
  match d.precision with
  | some n => cs.take n
  | none => cs

def sign (d : Directive) (isNegative : Bool) : List Char :=
  if isNegative then ['-']
  else if d.flags.contains '+' then ['+']
  else if d.flags.contains ' ' then [' ']
  else []

def isCapital (d : Directive) : Bool := d.conversion.isUpper

def cased (d : Directive) (cs : List Char) : List Char :=
  if d.isCapital then cs.map Char.toUpper else cs

def integer (d : Directive) (n : Int) : List Char :=
  let isSigned := d.conversion = 'd' || d.conversion = 'i'
  let base := if d.conversion = 'o' then 8 else if d.conversion.toLower = 'x' then 16 else 10
  let magnitude := if isSigned then n.natAbs else Numeral.unsigned n
  let digits := if magnitude = 0 && d.precision = some 0 then [] else Nat.toDigits base magnitude
  let digits := List.replicate (d.precision.getD 1 - digits.length) '0' ++ digits
  let isAlternate := d.flags.contains '#'
  let digits := if isAlternate && base = 8 && digits.head? != some '0' then '0' :: digits else digits
  let before := if isSigned then d.sign (n < 0)
    else if isAlternate && base = 16 && magnitude != 0 then d.cased ['0', 'x'] else []
  d.padNumber before (d.cased digits) d.precision.isNone

def exponentText (e : Int) : List Char :=
  'e' :: (if e < 0 then '-' else '+') :: Decimal.paddedDigits 2 e.natAbs

/-- A point stands only before digits, unless it is asked for. -/
def pointed (d : Directive) (whole fraction : List Char) : List Char :=
  if fraction.isEmpty && !d.flags.contains '#' then whole else whole ++ '.' :: fraction

def withoutZeros (cs : List Char) : List Char := (cs.reverse.dropWhile (· = '0')).reverse

/-- The number in the style that is shorter, without zeros at its end. -/
def general (d : Directive) (r : Decimal.Ratio) : List Char :=
  let precision := max 1 (d.precision.getD 6)
  let trim (cs : List Char) : List Char := if d.flags.contains '#' then cs else withoutZeros cs
  let (whole, fraction, e) := r.scientific (precision - 1)
  if e < -4 || (precision : Int) ≤ e then d.pointed whole (trim fraction) ++ exponentText e
  else
    let (whole, fraction) := r.fixed ((precision : Int) - 1 - e).toNat
    d.pointed whole (trim fraction)

/-- The digits of a number in base sixteen, after one binary digit. -/
def hexadecimal (d : Directive) (x : Float) : List Char :=
  let bits := x.toBits.toNat % Nat.pow 2 63
  let biased := bits / Nat.pow 2 52
  let first := if biased = 0 then 0 else 1
  let e : Int := if bits = 0 then 0 else if biased = 0 then -1022 else (biased : Int) - 1023
  let places := d.precision.getD 13
  let significand := first * Nat.pow 2 52 + bits % Nat.pow 2 52
  let rounded := Decimal.roundToEven (significand * Nat.pow 16 places) (Nat.pow 2 52)
  let digits := Nat.toDigits 16 rounded
  let digits := List.replicate (places + 1 - digits.length) '0' ++ digits
  let fraction := digits.drop (digits.length - places)
  let fraction := if d.precision.isNone then withoutZeros fraction else fraction
  d.pointed (digits.take (digits.length - places)) fraction ++
    'p' :: (if e < 0 then '-' else '+') :: Nat.toDigits 10 e.natAbs

def real (d : Directive) (isNegative : Bool) (x : Float) : List Char :=
  let sign := d.sign isNegative
  if x.isNaN then d.pad (sign ++ d.cased "nan".toList)
  else if x.isInf then d.pad (sign ++ d.cased "inf".toList)
  else
    let r := Decimal.Ratio.ofFloat x
    let body := match d.conversion.toLower with
      | 'f' =>
        let (whole, fraction) := r.fixed (d.precision.getD 6)
        d.pointed whole fraction
      | 'e' =>
        let (whole, fraction, e) := r.scientific (d.precision.getD 6)
        d.pointed whole fraction ++ exponentText e
      | 'g' => d.general r
      | _ => d.hexadecimal x
    let isHexadecimal := d.conversion.toLower = 'a'
    d.padNumber (sign ++ if isHexadecimal then d.cased ['0', 'x'] else []) (d.cased body) true

end Directive

/-- What a run of `printf` has come to. -/
structure Progress where
  /-- The pieces printed, the last one first. -/
  printed : List (List Char)
  arguments : List String
  /-- What is to be said about arguments that are no numbers. -/
  complaints : List String

/-- Why a run ends early: all output ends, or the format is wrong. -/
inductive Interruption where
  | ended
  | wrong (message : String)
  deriving Repr, DecidableEq

abbrev Print := EStateM Interruption Progress

def put (cs : List Char) : Print Unit := modify fun p => { p with printed := cs :: p.printed }

def complain (message : String) : Print Unit :=
  modify fun p => { p with complaints := p.complaints ++ [message] }

/-- Takes the next argument, if there is one. -/
def next : Print (Option String) := do
  let p ← get
  match p.arguments with
  | [] => return none
  | a :: rest =>
    set { p with arguments := rest }
    return some a

/-- Complains about what is left of an argument after its number. -/
def checkRest (argument : String) (rest : List Char) (isOutOfRange : Bool) : Print Unit := do
  if rest.length = argument.length && !rest.isEmpty then
    complain (argument ++ ": expected numeric value")
  else if !rest.isEmpty then complain (argument ++ ": not completely converted")
  else if isOutOfRange then complain (argument ++ ": Numerical result out of range")

/-- A quotation mark stands before a character that is meant by its number. -/
def quotedCharacter? (argument : String) : Option Nat :=
  match argument.toList with
  | '"' :: rest | '\x27' :: rest => some ((rest.head?.map Char.toNat).getD 0)
  | _ => none

def integerArgument (isSigned : Bool) : Print Int := do
  match ← next with
  | none => return 0
  | some a =>
    match quotedCharacter? a with
    | some n => return n
    | none =>
      match Numeral.read? false a.toList with
      | none =>
        checkRest a a.toList false
        return 0
      | some r =>
        let top : Int := if isSigned then Numeral.greatest else (Numeral.wordSize : Int) - 1
        let isOutOfRange := if isSigned then r.value < Numeral.least || top < r.value
          else Numeral.wordSize ≤ r.magnitude
        checkRest a r.rest isOutOfRange
        if !isOutOfRange then return r.value
        return if isSigned && r.isNegative then Numeral.least else top

/-- Reads a number of the form that a scale gives: digits, perhaps a point among them, and perhaps a
power. -/
def scaled? (base : Nat) (power : Char) (cs : List Char) : Option (Nat × Nat × Int × List Char) :=
  let (whole, rest) := cs.span fun c => Numeral.digitValue c < base
  let (fraction, rest) := match rest with
    | '.' :: more =>
      let (fraction, after) := more.span fun c => Numeral.digitValue c < base
      if whole.isEmpty && fraction.isEmpty then ([], rest) else (fraction, after)
    | _ => ([], rest)
  if whole.isEmpty && fraction.isEmpty then none
  else
    let value := (whole ++ fraction).foldl (fun n c => n * base + Numeral.digitValue c) 0
    let (exponent, rest) : Int × List Char := match rest with
      | c :: more =>
        if c.toLower = power then
          let (isNegative, digits) := match more with
            | '-' :: digits => (true, digits)
            | '+' :: digits => (false, digits)
            | digits => (false, digits)
          let (digits, after) := digits.span Char.isDigit
          if digits.isEmpty then (0, rest)
          else
            let n : Nat := digits.foldl (fun n c => n * 10 + (c.toNat - 48)) 0
            (if isNegative then -(n : Int) else n, after)
        else (0, rest)
      | [] => (0, rest)
    some (value, fraction.length, exponent, rest)

/-- The number with a power of two, far from which powers do not matter. -/
def binaryScaled (n : Nat) (exponent : Int) : Float :=
  let e := max (-20000) (min 20000 exponent)
  Decimal.nearest (n * Nat.pow 2 e.toNat) (Nat.pow 2 (-e).toNat)

/-- Reads the magnitude of a number, and what follows it. -/
def magnitude? (cs : List Char) : Option (Float × List Char) :=
  let lower := cs.map Char.toLower
  if "infinity".toList.isPrefixOf lower then some (1.0 / 0.0, cs.drop 8)
  else if "inf".toList.isPrefixOf lower then some (1.0 / 0.0, cs.drop 3)
  else if "nan".toList.isPrefixOf lower then some (0.0 / 0.0, cs.drop 3)
  else
    let hexadecimal := match lower with
      | '0' :: 'x' :: _ => scaled? 16 'p' (cs.drop 2)
      | _ => none
    match hexadecimal with
    | some (n, places, e, rest) => some (binaryScaled n (e - 4 * places), rest)
    | none =>
      (scaled? 10 'e' cs).map fun (n, places, e, rest) => (Decimal.nearestScaled n (e - places), rest)

/-- Smaller numbers have fewer digits. -/
def leastNormal : Float := Decimal.nearest 1 (Nat.pow 2 1022)

def realArgument : Print (Bool × Float) := do
  match ← next with
  | none => return (false, 0.0)
  | some a =>
    match quotedCharacter? a with
    | some n => return (false, Float.ofNat n)
    | none =>
      let cs := a.toList.dropWhile Numeral.isSpace
      let (isNegative, digits) := match cs with
        | '-' :: rest => (true, rest)
        | '+' :: rest => (false, rest)
        | _ => (false, cs)
      match magnitude? digits with
      | none =>
        checkRest a a.toList false
        return (false, 0.0)
      | some (x, rest) =>
        let isNumeral := !(digits.head?.any Char.isAlpha)
        let isHexadecimal := (digits.drop 1).head?.any fun c => c.toLower = 'x'
        let isTiny := (x == 0.0 || (x < leastNormal && !isHexadecimal)) &&
          (digits.takeWhile (·.toLower != 'e')).any fun c => '1' ≤ c && c ≤ '9'
        checkRest a rest (isNumeral && (x.isInf || isTiny))
        return (isNegative, x)

/-- Reads a width or precision: digits, or a star for an argument, of which thirty-two bits count. -/
def size (cs : List Char) : Print (Option Int × List Char) := do
  match cs with
  | '*' :: rest => return (some (Int.bmod (← integerArgument true) 4294967296), rest)
  | _ =>
    let digits := cs.takeWhile Char.isDigit
    let n : Nat := digits.foldl (fun n c => n * 10 + (c.toNat - 48)) 0
    return (if digits.isEmpty then none else some (n : Int), cs.drop digits.length)

/-- Reads what follows a percent sign. A negative width aligns on the left, and a negative precision is
none. -/
def directive (cs : List Char) : Print (Directive × List Char) := do
  let flags := cs.takeWhile fun c => ['#', '-', '+', ' ', '0'].contains c
  let (width, rest) ← size (cs.drop flags.length)
  let width := width.getD 0
  let (precision, rest) : Option Int × List Char ←
    match rest with
    | '.' :: rest => do
      let (n, rest) ← size rest
      pure (some (n.getD 0), rest)
    | _ => pure (none, rest)
  match rest with
  | [] => throw (.wrong "missing format character")
  | c :: after =>
    let text := '%' :: cs.take (cs.length - after.length)
    return (⟨text, flags, width.natAbs, flags.contains '-' || width < 0,
      (precision.filter (0 ≤ ·)).map Int.toNat, c⟩, after)

def convert (d : Directive) : Print Unit := do
  match d.conversion with
  | 's' => put (d.pad (d.cut ((← next).getD "").toList))
  | 'c' => put (d.pad [(((← next).getD "").toList.head?).getD '\x00'])
  | 'b' =>
    let a := (← next).getD ""
    let (cs, ends) := unescape a.length a.toList
    put (d.pad (d.cut cs))
    if ends then throw .ended
  | c =>
    if ['d', 'i'].contains c then put (d.integer (← integerArgument true))
    else if ['o', 'u', 'x', 'X'].contains c then put (d.integer (← integerArgument false))
    else if ['a', 'A', 'e', 'E', 'f', 'F', 'g', 'G'].contains c then
      let (isNegative, x) ← realArgument
      put (d.real isNegative x)
    else throw (.wrong (String.ofList d.text ++ ": invalid directive"))

/-- One pass over the format. -/
def pass : (fuel : Nat) → List Char → Print Unit
  | 0, _ => pure ()
  | _, [] => pure ()
  | fuel + 1, '\\' :: rest => do
    let (c, rest) := escape rest
    put [c]
    pass fuel rest
  | fuel + 1, '%' :: '%' :: rest => do
    put ['%']
    pass fuel rest
  | fuel + 1, '%' :: rest => do
    let (d, rest) ← directive rest
    convert d
    pass fuel rest
  | fuel + 1, c :: rest => do
    put [c]
    pass fuel rest

/-- The format is used again as long as arguments are left and it takes any. -/
def passes (format : List Char) : (fuel : Nat) → Print Unit
  | 0 => pure ()
  | fuel + 1 => do
    let before := (← get).arguments.length
    pass (format.length + 1) format
    let left := (← get).arguments.length
    if left != before && left != 0 then passes format fuel

/-- What is printed, what is said about arguments, and why the format is wrong, if it is. -/
def printf (format : String) (args : List String) : String × List String × Option String :=
  let (wrong, p) : Option String × Progress :=
    match (passes format.toList (args.length + 1)).run ⟨[], args, []⟩ with
    | .ok () p => (none, p)
    | .error .ended p => (none, p)
    | .error (.wrong message) p => (some message, p)
  (String.ofList p.printed.reverse.flatten, p.complaints, wrong)

end BitcodeWrapper.Shell.Printing
