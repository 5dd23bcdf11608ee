import BitcodeWrapper.Text.Utf8

/-!
Scripts deal in bytes. Their texts have one character for each byte, with the byte's number.
-/
namespace BitcodeWrapper.Shell.Octets

def ofBytes (bytes : Bytes) : String :=
  String.ofList (bytes.map fun b => Char.ofNat b.toNat)

def toBytes (s : String) : Bytes :=
  s.toList.map fun c => UInt8.ofNat c.toNat

def ofText (s : String) : String := ofBytes (Text.Utf8.encode s)

/-- The text that bytes spell, with ill-formed pieces replaced. -/
def toText (s : String) : String := Text.Utf8.decodeLossy (toBytes s)

theorem toNat_ofNat_octet (b : UInt8) : (Char.ofNat b.toNat).toNat = b.toNat := by
  have h : b.toNat.isValidChar := Or.inl (by have := b.toNat_lt; omega)
  rw [Char.ofNat, dif_pos h]
  rfl

theorem toBytes_ofBytes (bytes : Bytes) : toBytes (ofBytes bytes) = bytes := by
  simp only [toBytes, ofBytes, String.toList_ofList, List.map_map]
  conv => rhs; rw [← List.map_id bytes]
  refine List.map_congr_left fun b _ => ?_
  simp [toNat_ofNat_octet]

end BitcodeWrapper.Shell.Octets
