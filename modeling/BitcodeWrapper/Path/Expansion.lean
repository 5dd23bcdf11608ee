import BitcodeWrapper.Bindings
import BitcodeWrapper.Path.Basic
import BitcodeWrapper.Text.Word

/-!
Home directories and variables in the text of a path. A variable that is not set stays as written, and
what a variable stands for is not expanded again.
-/
namespace BitcodeWrapper.Path

/-- The value of the variable, or the text that named it. -/
def valueOr (env : Bindings) (name written : List Char) : List Char :=
  match env.get? (String.ofList name) with
  | some value => value.toList
  | none => written

def expandVariablesIn (env : Bindings) : List Char → List Char
  | [] => []
  | '$' :: '\x7b' :: rest =>
    if '\x7d' ∈ rest then
      let name := rest.takeWhile (· != '\x7d')
      valueOr env name ('$' :: '\x7b' :: name ++ ['\x7d']) ++
        expandVariablesIn env ((rest.dropWhile (· != '\x7d')).drop 1)
    else '$' :: '\x7b' :: expandVariablesIn env rest
  | '$' :: rest =>
    let name := rest.takeWhile Text.isAsciiWord
    if name = [] then '$' :: expandVariablesIn env rest
    else valueOr env name ('$' :: name) ++ expandVariablesIn env (rest.dropWhile Text.isAsciiWord)
  | c :: rest => c :: expandVariablesIn env rest
termination_by cs => cs.length
decreasing_by
  all_goals simp only [List.length_cons, List.length_drop]
  · have := (@List.dropWhile_suffix _ rest (· != '\x7d')).length_le
    omega
  · omega
  · omega
  · have := (@List.dropWhile_suffix _ rest Text.isAsciiWord).length_le
    omega
  · omega

theorem expandVariablesIn_eq_self (env : Bindings) {cs : List Char} (h : '$' ∉ cs) :
    expandVariablesIn env cs = cs := by
  induction cs with
  | nil => simp [expandVariablesIn]
  | cons c rest ih =>
    simp only [List.mem_cons, not_or] at h
    rw [expandVariablesIn]
    · rw [ih h.2]
    · rintro _ rfl; exact absurd rfl h.1
    · rintro rfl; exact absurd rfl h.1

def expandVariables (env : Bindings) (path : String) : String :=
  String.ofList (expandVariablesIn env path.toList)

/-- The home directories that a path may begin with: one's own, if there is one, and those of named
accounts. -/
structure Homes where
  own : Option String
  accounts : Bindings

/-- A leading tilde with an account name stands for its home directory; without one it stays. -/
def expandHomeIn (homes : Homes) (cs : List Char) : List Char :=
  match cs with
  | '~' :: rest =>
    let account := rest.takeWhile (· != slash)
    let after := rest.dropWhile (· != slash)
    let home? :=
      if account = [] then homes.own else homes.accounts.get? (String.ofList account)
    match home? with
    | none => cs
    | some home =>
      let expanded := dropTrailing slash home.toList ++ after
      if expanded = [] then [slash] else expanded
  | _ => cs

def expandHome (homes : Homes) (path : String) : String :=
  String.ofList (expandHomeIn homes path.toList)

/-- No account can be looked up by a name with a NUL in it. -/
def namesAccountWithNul (path : String) : Bool :=
  match path.toList with
  | '~' :: rest => (rest.takeWhile (· != slash)).contains '\x00'
  | _ => false

end BitcodeWrapper.Path
