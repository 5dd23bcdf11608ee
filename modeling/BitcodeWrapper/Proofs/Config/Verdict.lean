import BitcodeWrapper.Proofs.Config.Escape

/-! The verdict on a file of text: the conditions under which it is accepted, and what a configuration that
is accepted carries. A file that does not meet them is refused, unless it names a tool by a text with a lone
surrogate that the system cannot be given. -/
namespace BitcodeWrapper.Config
open BitcodeWrapper.Action Yaml

variable {reader : Reader} {runner : Runner} {s : Settings} {name path text : String}
  {isDryRun retainsWorkspace : Bool} {c : Configuration LooseText} {fault : Fault} {h h' : Host}

theorem IsText.unique {text' : String} (htext : IsText h path text) (htext' : IsText h path text') :
    text = text' := by
  obtain ⟨bytes, decoded, hbytes, hdecode, rfl⟩ := htext.readable
  obtain ⟨bytes', decoded', hbytes', hdecode', rfl⟩ := htext'.readable
  cases hbytes.symm.trans hbytes'
  cases hdecode.symm.trans hdecode'
  rfl

theorem Spells.unique {s' : Settings} (hspells : Spells reader text s) (hspells' : Spells reader text s') :
    s = s' := by
  obtain ⟨d, hread, hmapping⟩ := hspells.wellFormed
  obtain ⟨d', hread', hmapping'⟩ := hspells'.wellFormed
  cases hread.symm.trans hread'
  exact Option.some.inj (hmapping.symm.trans hmapping')

end BitcodeWrapper.Config
