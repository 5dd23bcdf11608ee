import BitcodeWrapper.Proofs.Host.Absolute
import BitcodeWrapper.Proofs.Path.Agreement

/-! The paths of loose texts on a machine. A text of characters leads where its path does, and no text leads to
a path with a lone surrogate that it does not hold itself. -/
namespace BitcodeWrapper

namespace LooseText
open Text

variable {t : LooseText} {s : String}

end LooseText

namespace Host

variable {h : Host} {text path : LooseText} {fault : Fault}

theorem looseWhole_ofString (h : Host) (path : String) :
    h.looseWhole path =
      if Path.namesAccountWithNul path then .error .invalidValue
      else .ok (Files.absolutePath h.here (h.expandText path) : LooseText) := by
  rw [looseWhole, LooseText.ofString, Path.Loose.expandHome_map_char]
  split
  · rfl
  · have hvariables := Path.Loose.expandVariables_map_char h.environment (Path.expandHomeIn h.homes path.toList)
    have hexpand : Path.expandVariablesIn h.environment (Path.expandHomeIn h.homes path.toList) =
        (h.expandText path).toList := by
      rw [expandText, Path.expandVariables, Path.expandHome, String.toList_ofList, String.toList_ofList]
    refine Path.Loose.bind_eq_ok_iff.mpr ⟨_, rfl, Path.Loose.bind_eq_ok_iff.mpr ⟨_, hvariables, ?_⟩⟩
    rw [hexpand, Path.Loose.absolute_map_char]
    rfl

theorem isLooseDirectory_ofString (h : Host) (path : String) : h.isLooseDirectory path = h.isDirectory path := by
  rw [isLooseDirectory, LooseText.received?_ofString, Option.any_some]

/-- A text of characters leads where its path does. -/
theorem expandLoose_ofString (h : Host) (path : String) :
    h.expandLoose path = (h.expandPath path false).map LooseText.ofString := by
  have hparent : ∀ whole : String,
      LooseText.mk (Path.Loose.directory (whole : LooseText).points) = (Path.directory whole : LooseText) := by
    intro whole
    rw [LooseText.ofString, Path.Loose.directory_map_char, LooseText.ofString, Path.directory,
      String.toList_ofList]
  rw [expandLoose, expandPath, looseWhole_ofString]
  simp only [Bool.false_and, Bool.false_or, Bool.false_eq_true, if_false]
  split
  · rfl
  · have hbind : ∀ (whole : LooseText) (next : LooseText → Except Fault LooseText),
        Except.ok whole >>= next = next whole := fun _ _ => rfl
    rw [hbind, hparent, isLooseDirectory_ofString, LooseText.shown_ofString]
    split <;> rfl

theorem expandLoose_ofString_eq_ok_iff {path whole : String} :
    h.expandLoose path = .ok whole ↔ h.expandPath path false = .ok whole := by
  rw [expandLoose_ofString]
  cases h.expandPath path false with
  | error fault => exact iff_of_false nofun nofun
  | ok found =>
    constructor
    · intro heq
      rw [LooseText.ofString_injective (Except.ok.inj heq)]
    · rintro ⟨⟩
      rfl

theorem fault_of_looseWhole (hfault : h.looseWhole text = .error fault) :
    fault = .invalidValue ∧ text.isPassable = false := by
  obtain hhome | ⟨ps, hhome, hfault⟩ := Path.Loose.bind_eq_error_iff.mp hfault
  · exact Path.Loose.fault_of_expandHome hhome
  · obtain hvariables | ⟨out, -, hfault⟩ := Path.Loose.bind_eq_error_iff.mp hfault
    · obtain ⟨hinvalid, hps⟩ := Path.Loose.fault_of_expandVariables hvariables
      refine ⟨hinvalid, ?_⟩
      have hchar : ∀ c : Char, (Text.Point.char c).bytes?.isSome = true := fun _ => rfl
      -- The names of the variables are in the text itself, or in a home directory of characters.
      have htext : text.isEncodable = false := by
        refine Bool.eq_false_iff.mpr fun htext => ?_
        have hall := Path.Loose.all_expandHome hchar hhome (LooseText.isEncodable_iff.mp htext)
        have hencodable : (LooseText.mk ps).isEncodable = true := LooseText.isEncodable_iff.mpr hall
        exact absurd (hps.symm.trans hencodable) (by decide)
      rw [LooseText.isPassable, htext, Bool.false_and]
    · cases hfault

/-- A path cannot be made absolute because its directory is missing, or because the text has what cannot be
asked for. -/
theorem fault_of_expandLoose (hfault : h.expandLoose text = .error fault) :
    (∃ e, fault = .os e) ∨ fault = .invalidValue ∧ text.isPassable = false := by
  obtain hwhole | ⟨whole, -, hfault⟩ := Path.Loose.bind_eq_error_iff.mp hfault
  · exact .inr (fault_of_looseWhole hwhole)
  · dsimp only at hfault
    split at hfault
    · exact nomatch hfault
    · exact .inl ⟨_, (Except.error.inj hfault).symm⟩

end Host

end BitcodeWrapper
