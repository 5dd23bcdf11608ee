import BitcodeWrapper.Decimal.Integer
import BitcodeWrapper.Text.Listing

/-!
Dates, and moments of a day that may say how far their clock is from universal time.
-/
namespace BitcodeWrapper.Yaml

structure Date where
  year : Nat
  month : Nat
  day : Nat
  deriving Repr, DecidableEq

structure Moment where
  date : Date
  hour : Nat
  minute : Nat
  second : Nat
  microsecond : Nat
  /-- Minutes ahead of universal time. -/
  offset : Option Int
  deriving Repr, DecidableEq

namespace Date

def isLeapYear (year : Nat) : Bool :=
  year % 4 = 0 && (year % 100 != 0 || year % 400 = 0)

def daysOf (year month : Nat) : Nat :=
  if month = 2 then if isLeapYear year then 29 else 28
  else if [4, 6, 9, 11].contains month then 30
  else 31

def isValid (d : Date) : Bool :=
  1 ≤ d.year && 1 ≤ d.month && d.month ≤ 12 && 1 ≤ d.day && d.day ≤ daysOf d.year d.month

/-- The days since the first day of year one. -/
def number (d : Date) : Nat :=
  let y := d.year - 1
  y * 365 + y / 4 - y / 100 + y / 400 +
    (List.range (d.month - 1)).foldl (fun days m => days + daysOf d.year (m + 1)) 0 + (d.day - 1)

end Date

/-- Decimal digits, with zeros in front up to a width. -/
def padded (width n : Nat) : String :=
  let digits := Nat.toDigits 10 n
  String.ofList (List.replicate (width - digits.length) '0' ++ digits)

def Date.text (d : Date) : String :=
  padded 4 d.year ++ "-" ++ padded 2 d.month ++ "-" ++ padded 2 d.day

def Date.fields (d : Date) : List Nat := [d.year, d.month, d.day]

/-- How a date is written inside of lists and mappings. -/
def Date.shown (d : Date) : String :=
  "datetime.date(" ++ Text.commaSeparated (d.fields.map toString) ++ ")"

namespace Moment

/-- The offset is less than a day. -/
def isValid (m : Moment) : Bool :=
  m.date.isValid && m.hour < 24 && m.minute < 60 && m.second < 60 &&
    m.offset.all fun minutes => minutes.natAbs < 24 * 60

def offsetText (minutes : Int) : String :=
  (if minutes < 0 then "-" else "+") ++ padded 2 (minutes.natAbs / 60) ++ ":" ++
    padded 2 (minutes.natAbs % 60)

def text (m : Moment) : String :=
  m.date.text ++ " " ++ padded 2 m.hour ++ ":" ++ padded 2 m.minute ++ ":" ++ padded 2 m.second ++
    (if m.microsecond = 0 then "" else "." ++ padded 6 m.microsecond) ++
    (m.offset.map offsetText).getD ""

/-- A negative span is written with whole days that go too far back. -/
def shownOffset (minutes : Int) : String :=
  let seconds := minutes * 60
  if minutes = 0 then "datetime.timezone.utc"
  else if minutes < 0 then
    "datetime.timezone(datetime.timedelta(days=-1, seconds=" ++ toString (seconds + 86400) ++ "))"
  else "datetime.timezone(datetime.timedelta(seconds=" ++ toString seconds ++ "))"

/-- Seconds and their fraction are left out if nothing but zeros follows. -/
def shown (m : Moment) : String :=
  let time :=
    if m.microsecond != 0 then [m.hour, m.minute, m.second, m.microsecond]
    else if m.second != 0 then [m.hour, m.minute, m.second]
    else [m.hour, m.minute]
  "datetime.datetime(" ++ Text.commaSeparated ((m.date.fields ++ time).map toString ++
    ((m.offset.map fun o => "tzinfo=" ++ shownOffset o).toList)) ++ ")"

/-- Microseconds since the first day of year one, by universal time if the offset is known. -/
def instant (m : Moment) : Int :=
  let minutes : Int := (m.date.number * 24 + m.hour) * 60 + m.minute - m.offset.getD 0
  (minutes * 60 + m.second) * 1000000 + m.microsecond

/-- Two moments are the same if their clocks show the same, or the same universal time. -/
def isSame (a b : Moment) : Bool :=
  a.offset.isSome == b.offset.isSome && a.instant == b.instant

end Moment

namespace Timestamp

/-- Takes a number of some digits: as many as there are up to `most`, and no fewer than `least`. -/
def field (least most : Nat) (cs : List Char) : Option (Nat × List Char) :=
  let digits := (cs.take most).takeWhile Char.isDigit
  if digits.length < least then none
  else some (Decimal.digitsValue digits, cs.drop digits.length)

/-- Takes a mark and the number after it. -/
def fieldAfter (mark : Char) (least most : Nat) : List Char → Option (Nat × List Char)
  | c :: cs => if c = mark then field least most cs else none
  | [] => none

/-- Takes all digits after a point, if there is one; the first six count. -/
def fraction : List Char → Nat × List Char
  | '.' :: cs =>
    let digits := cs.takeWhile Char.isDigit
    (Decimal.digitsValue (digits.take 6 ++ List.replicate (6 - digits.length) '0'),
      cs.drop digits.length)
  | cs => (0, cs)

def isBlankChar (c : Char) : Bool := c = ' ' || c = '\t'

/-- What stands between a date and a time: a letter, or blanks. -/
def separated : List Char → Option (List Char)
  | [] => none
  | c :: cs =>
    if c = 'T' || c = 't' then some cs
    else if isBlankChar c then some (cs.dropWhile isBlankChar)
    else none

/-- The hours and minutes of an offset, in minutes. -/
def span (cs : List Char) : Option Int := do
  let (hours, rest) ← field 1 2 cs
  let (minutes, rest) ← if rest.isEmpty then some (0, []) else fieldAfter ':' 2 2 rest
  if rest.isEmpty then return hours * 60 + minutes else none

/-- Reads what stands after the time: nothing, a letter for universal time, or an offset with its sign. -/
def offset? (cs : List Char) : Option (Option Int) :=
  if cs.isEmpty then some none
  else
    match cs.dropWhile isBlankChar with
    | ['Z'] => some (some 0)
    | '-' :: rest => (span rest).map fun minutes => some (-minutes)
    | '+' :: rest => (span rest).map some
    | _ => none

def date? (cs : List Char) : Option (Date × List Char) := do
  let (year, rest) ← field 4 4 cs
  let (month, rest) ← fieldAfter '-' 1 2 rest
  let (day, rest) ← fieldAfter '-' 1 2 rest
  return (⟨year, month, day⟩, rest)

def moment? (date : Date) (cs : List Char) : Option Moment := do
  let (hour, rest) ← field 1 2 (← separated cs)
  let (minute, rest) ← fieldAfter ':' 2 2 rest
  let (second, rest) ← fieldAfter ':' 2 2 rest
  let (microsecond, rest) := fraction rest
  return ⟨date, hour, minute, second, microsecond, ← offset? rest⟩

end Timestamp

/-- Reads a date, or a moment where a time follows it. -/
def timestamp? (cs : List Char) : Option (Date ⊕ Moment) := do
  let (date, rest) ← Timestamp.date? cs
  if rest.isEmpty then
    if date.isValid then return .inl date else none
  else
    let moment ← Timestamp.moment? date rest
    if moment.isValid then return .inr moment else none

end BitcodeWrapper.Yaml
