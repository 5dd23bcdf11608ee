import BitcodeWrapper.Pattern.Parser

/-!
Argument vectors of a compiler. Order matters and repeats are legal; the value of a flag is just the
element after it. Taking a flag out everywhere is given twice: as a loop, and as one pass from left to
right.
-/
namespace BitcodeWrapper

abbrev Arguments := List String

namespace Arguments

/-- Takes out the first occurrence of a flag, with its value if asked. -/
def withoutFirst (flag : String) (withValue : Bool) : Arguments → Arguments
  | [] => []
  | a :: rest =>
    if a = flag then (if withValue then rest.drop 1 else rest)
    else a :: withoutFirst flag withValue rest

/-- An empty flag names nothing, so nothing is taken out. -/
def without (args : Arguments) (flag : String) (withValue : Bool) : Arguments :=
  if flag = "" then args else withoutFirst flag withValue args

theorem length_withoutFirst_lt {flag : String} {withValue : Bool} {args : Arguments}
    (h : flag ∈ args) : (withoutFirst flag withValue args).length < args.length := by
  induction args with
  | nil => simp at h
  | cons a rest ih =>
    by_cases ha : a = flag
    · cases withValue
      · simp [withoutFirst, ha]
      · simp only [withoutFirst, if_pos ha, ↓reduceIte, List.length_drop, List.length_cons]
        omega
    · have : flag ∈ rest := by simpa [Ne.symm ha] using h
      simpa [withoutFirst, ha] using ih this

/-- Takes out the first occurrence again and again. -/
def withoutEveryFrom (flag : String) (withValue : Bool) (args : Arguments) : Arguments :=
  if _h : flag ∈ args then withoutEveryFrom flag withValue (withoutFirst flag withValue args)
  else args
termination_by args.length
decreasing_by exact length_withoutFirst_lt _h

def withoutEvery (args : Arguments) (flag : String) (withValue : Bool) : Arguments :=
  if flag = "" then args else withoutEveryFrom flag withValue args

/-- One pass from left to right. -/
def onePass (flag : String) (withValue : Bool) : Arguments → Arguments
  | [] => []
  | a :: rest =>
    if a = flag then
      match withValue, rest with
      | true, _ :: rest => onePass flag withValue rest
      | _, rest => onePass flag withValue rest
    else a :: onePass flag withValue rest

/-- Takes out every element that the pattern matches as a whole; a flag whose value goes stays. -/
def withoutMatching (args : Arguments) (pattern : Pattern) : Arguments :=
  args.filter fun a => !pattern.matchesAll a

/-- An empty pattern text takes nothing out, and an ill formed one has no answer. -/
def withoutWritten? (args : Arguments) (written : String) : Option Arguments :=
  if written = "" then some args
  else (Pattern.ofString? written).map args.withoutMatching

/-- Appends a flag, and its value unless that is empty; an empty flag appends nothing. -/
def adding (args : Arguments) (flag value : String) : Arguments :=
  if flag = "" then args
  else if value = "" then args ++ [flag]
  else args ++ [flag, value]

def has (args : Arguments) (flag : String) : Bool :=
  flag != "" && args.contains flag

theorem has_eq_decide {flag : String} (hflag : flag ≠ "") (args : Arguments) :
    args.has flag = decide (flag ∈ args) := by
  simp [has, hflag]

/-- The element after the first occurrence of a flag, or the empty text. -/
def valueAfter (flag : String) : Arguments → String
  | [] => ""
  | a :: rest => if a = flag then rest.headD "" else valueAfter flag rest

def valueOf (args : Arguments) (flag : String) : String :=
  if flag = "" then "" else valueAfter flag args

end Arguments

end BitcodeWrapper
