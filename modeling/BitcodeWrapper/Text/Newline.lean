/-!
Line ends of all kinds brought to newlines.
-/
namespace BitcodeWrapper.Text

/-- A carriage return ends a line, with the newline after it if there is one. -/
def withNewlines : List Char → List Char
  | [] => []
  | '\r' :: '\n' :: cs => '\n' :: withNewlines cs
  | '\r' :: cs => '\n' :: withNewlines cs
  | c :: cs => c :: withNewlines cs

theorem not_mem_withNewlines (cs : List Char) : '\r' ∉ withNewlines cs := by
  fun_induction withNewlines cs <;> simp_all [eq_comm]

end BitcodeWrapper.Text
