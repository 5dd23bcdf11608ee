import BitcodeWrapper.Proofs.Text.Utf8
import BitcodeWrapper.Text.Loose

/-! Loose text as the system reads it. It is given the bytes of a text, and reads them as another one if lone
surrogates stand for the bytes of a character. -/
namespace BitcodeWrapper.LooseText
open Text Text.Utf8

variable {t : LooseText} {s : String}

theorem isEncodable_iff : t.isEncodable = true ↔ ∀ p ∈ t.points, p.bytes?.isSome = true := List.all_eq_true

@[simp] theorem isEncodable_ofString (s : String) : (s : LooseText).isEncodable = true := by
  simp [isEncodable, ofString, Point.bytes?]

theorem bytes_ofString (s : String) : (s : LooseText).bytes = encode s := by
  simp [bytes, ofString, encode, List.flatMap_map, Point.bytes?]

@[simp] theorem received?_ofString (s : String) : (s : LooseText).received? = some s := by
  rw [received?, isEncodable_ofString, if_pos rfl, bytes_ofString, decode?_encode]

@[simp] theorem handed_ofString (s : String) : (s : LooseText).handed = s := by
  rw [handed, bytes_ofString, decodeLossy_encode]

theorem received?_eq_some_iff : t.received? = some s ↔ t.isEncodable = true ∧ encode s = t.bytes := by
  rw [received?, Option.ite_none_right_eq_some, decode?_eq_some_iff]

/-- What is read as a text is handed on as that text. -/
theorem handed_of_received (hreceived : t.received? = some s) : t.handed = s := by
  rw [handed, ← (received?_eq_some_iff.mp hreceived).2, decodeLossy_encode]

end BitcodeWrapper.LooseText
