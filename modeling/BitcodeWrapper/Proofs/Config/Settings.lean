import BitcodeWrapper.Config.File
import BitcodeWrapper.Proofs.Outcome
import Mathlib.Data.List.Forall2
import Mathlib.Data.List.Infix

/-! What the settings of a file hold, said without the computations that read it, and that these read it
and leave the machine as it is. -/
namespace BitcodeWrapper

namespace Bindings
variable {text : Type} [DecidableEq text] {b extra : Bindings text} {name value : text}

end Bindings

namespace Config
open BitcodeWrapper.Action Yaml

variable {reader : Reader} {s : Settings} {v : Value} {name path text decoded : String}
  {loose : LooseText} {texts : List LooseText} {bytes : Bytes} {h h' : Host}

/-- The text of a file of well-formed text, with its line ends brought to newlines. -/
structure IsText (h : Host) (path text : String) : Prop where
  plain : Files.hasNul path = false
  readable : ∃ bytes decoded, h.files.read h.here path = .ok bytes ∧
    Text.Utf8.decode? bytes = some decoded ∧ text = String.ofList (Text.withNewlines decoded.toList)

theorem outcome_fileText_eq_ok_iff :
    outcome (fileText path) h = (.ok text, h') ↔ h' = h ∧ IsText h path text := by
  cases hnul : Files.hasNul path with
  | true =>
    simp only [fileText, hnul, ↓reduceIte, outcome_bind, outcome_throw]
    refine iff_of_false (by simp) ?_
    rintro ⟨-, htext⟩
    cases hnul.symm.trans htext.plain
  | false =>
    simp only [fileText, hnul, Bool.false_eq_true, ↓reduceIte, outcome_bind, outcome_get]
    constructor
    · intro hout
      split at hout
      · cases hout
      · rename_i bytes hbytes
        split at hout
        · rename_i decoded hdecode
          cases hout
          exact ⟨rfl, hnul, bytes, decoded, hbytes, hdecode, rfl⟩
        · cases hout
    · rintro ⟨rfl, -, bytes, decoded, hbytes, hdecode, rfl⟩
      simp only [hbytes, hdecode, outcome_pure]

/-- The settings that a text spells out. -/
structure Spells (reader : Reader) (text : String) (s : Settings) : Prop where
  notBlank : Text.isAllBlank text = false
  wellFormed : ∃ d, reader.read text = .ok d ∧ Settings.ofDocument? d = some s

theorem outcome_settings_eq_ok_iff :
    outcome (settings reader text) h = (.ok s, h') ↔ h' = h ∧ Spells reader text s := by
  cases hblank : Text.isAllBlank text with
  | true =>
    simp only [settings, hblank, ↓reduceIte, outcome_bind]
    exact iff_of_false nofun fun ⟨_, hspells⟩ => nomatch hblank.symm.trans hspells.notBlank
  | false =>
    simp only [settings, hblank, Bool.false_eq_true, ↓reduceIte]
    constructor
    · intro hout
      split at hout
      · exact nomatch hout
      · exact nomatch hout
      · rename_i d hread
        split at hout
        · rename_i s' hmapping
          cases hout
          exact ⟨rfl, hblank, d, hread, hmapping⟩
        · exact nomatch hout
    · rintro ⟨rfl, -, d, hread, hmapping⟩
      simp only [hread, hmapping, outcome_pure]

theorem outcome_textOf_eq_ok_iff :
    outcome (s.textOf v) h = (.ok loose, h') ↔ h' = h ∧ s.document.text? v = some loose := by
  rw [Settings.textOf]
  cases s.document.text? v with
  | none => simp
  | some found =>
    simp only [outcome_pure, Prod.mk.injEq, Except.ok.injEq, Option.some.injEq, eq_comm (a := h)]
    exact and_comm

/-- A list is read element by element, and all of them are. -/
theorem outcome_mapM_eq_ok_iff {α β : Type} {f : α → Action β} {P : α → β → Prop}
    (hf : ∀ a b h h', outcome (f a) h = (.ok b, h') ↔ h' = h ∧ P a b) {as : List α} {bs : List β} :
    outcome (as.mapM f) h = (.ok bs, h') ↔ h' = h ∧ List.Forall₂ P as bs := by
  induction as generalizing bs h h' with
  | nil =>
    rw [List.mapM_nil, outcome_pure, List.forall₂_nil_left_iff]
    constructor
    · rintro ⟨⟩
      exact ⟨rfl, rfl⟩
    · rintro ⟨rfl, rfl⟩
      rfl
  | cons a as ih =>
    simp only [List.mapM_cons, outcome_bind_eq_ok_iff, hf, ih, outcome_pure]
    constructor
    · rintro ⟨b, _, ⟨rfl, hb⟩, bs, _, ⟨rfl, hbs⟩, ⟨⟩⟩
      exact ⟨rfl, .cons hb hbs⟩
    · rintro ⟨rfl, hall⟩
      obtain ⟨b, bs, hb, hbs, rfl⟩ := List.forall₂_cons_left_iff.mp hall
      exact ⟨b, h', ⟨rfl, hb⟩, bs, h', ⟨rfl, hbs⟩, rfl⟩

namespace Settings

/-- A setting is left out, or it is a list whose items have these texts. -/
inductive HoldsTexts (s : Settings) (name : String) : List LooseText → Prop
  | nothing (isNull : s.get name = .null) : HoldsTexts s name []
  | list {items : List Value} {texts : List LooseText} (holds : s.collection? name = some (.list items))
      (shown : List.Forall₂ (fun v text => s.document.text? v = some text) items texts) :
      HoldsTexts s name texts

/-- The texts of a key and its value; no value is an empty text. -/
structure PairShown (s : Settings) (entry : Value × Value) (pair : LooseText × LooseText) : Prop where
  key : s.document.text? entry.1 = some pair.1
  value : (entry.2 = .null ∧ pair.2 = ("" : LooseText)) ∨
    entry.2 ≠ .null ∧ s.document.text? entry.2 = some pair.2

/-- A setting is left out, or it is a mapping whose entries have these texts. -/
inductive HoldsPairs (s : Settings) (name : String) : List (LooseText × LooseText) → Prop
  | nothing (isNull : s.get name = .null) : HoldsPairs s name []
  | mapping {entries : List (Value × Value)} {pairs : List (LooseText × LooseText)}
      (holds : s.collection? name = some (.mapping entries))
      (shown : List.Forall₂ s.PairShown entries pairs) : HoldsPairs s name pairs

theorem get_ne_null {c : Collection} (holds : s.collection? name = some c) : s.get name ≠ .null := by
  intro hnull
  simp only [collection?, hnull] at holds
  exact nomatch holds

end Settings

theorem outcome_listOf_eq_ok_iff :
    outcome (listOf s name) h = (.ok texts, h') ↔ h' = h ∧ s.HoldsTexts name texts := by
  have hitems : ∀ items : List Value, outcome (items.mapM s.textOf) h = (.ok texts, h') ↔
      h' = h ∧ List.Forall₂ (fun v text => s.document.text? v = some text) items texts :=
    fun items => outcome_mapM_eq_ok_iff fun _ _ _ _ => outcome_textOf_eq_ok_iff
  constructor
  · intro hout
    rw [listOf] at hout
    split at hout
    · rename_i hnull
      cases hout
      exact ⟨rfl, .nothing hnull⟩
    · rename_i items holds _
      obtain ⟨hmachine, hshown⟩ := (hitems items).mp hout
      exact ⟨hmachine, .list holds hshown⟩
    · exact nomatch hout
  · rintro ⟨rfl, hnull | ⟨holds, hshown⟩⟩
    · simp only [listOf, hnull, outcome_pure]
    · rw [listOf]
      split
      · exact absurd ‹_› (Settings.get_ne_null holds)
      · rename_i items' holds' _
        cases holds.symm.trans holds'
        exact (hitems _).mpr ⟨rfl, hshown⟩
      · rename_i hno
        exact absurd holds (hno _)

theorem outcome_valueText_eq_ok_iff : outcome (valueText s v) h = (.ok loose, h') ↔
    h' = h ∧ ((v = .null ∧ loose = ("" : LooseText)) ∨ v ≠ .null ∧ s.document.text? v = some loose) := by
  rw [valueText.eq_def]
  split
  · simp only [outcome_pure, Prod.mk.injEq, Except.ok.injEq, true_and, ne_eq, not_true_eq_false,
      false_and, or_false, eq_comm (a := h), eq_comm (a := ("" : LooseText))]
    exact and_comm
  · rename_i hvalue
    have hne : v ≠ .null := fun hnull => hvalue hnull
    simp only [outcome_textOf_eq_ok_iff, hne, false_and, ne_eq, not_false_eq_true, true_and, false_or]

theorem outcome_mappingOf_eq_ok_iff {b : Bindings LooseText} : outcome (mappingOf s name) h = (.ok b, h') ↔
    h' = h ∧ ∃ pairs, s.HoldsPairs name pairs ∧ b = Bindings.ofPairs pairs := by
  have hentry : ∀ (entry : Value × Value) pair h h',
      outcome (do return (← s.textOf entry.1, ← valueText s entry.2)) h = (.ok pair, h') ↔
        h' = h ∧ s.PairShown entry pair := by
    intro entry pair h h'
    simp only [outcome_bind_eq_ok_iff, outcome_textOf_eq_ok_iff, outcome_valueText_eq_ok_iff,
      outcome_pure]
    constructor
    · rintro ⟨key, _, ⟨rfl, hkey⟩, value, _, ⟨rfl, hvalue⟩, ⟨⟩⟩
      exact ⟨rfl, hkey, hvalue⟩
    · rintro ⟨rfl, hkey, hvalue⟩
      exact ⟨pair.1, h', ⟨rfl, hkey⟩, pair.2, h', ⟨rfl, hvalue⟩, rfl⟩
  constructor
  · intro hout
    rw [mappingOf] at hout
    split at hout
    · rename_i hnull
      cases hout
      exact ⟨rfl, [], .nothing hnull, rfl⟩
    · rename_i entries holds _
      obtain ⟨pairs, _, hpairs, hend⟩ := outcome_bind_eq_ok_iff.mp hout
      obtain ⟨rfl, hshown⟩ := (outcome_mapM_eq_ok_iff hentry).mp hpairs
      cases hend
      exact ⟨rfl, pairs, .mapping holds hshown, rfl⟩
    · exact nomatch hout
  · rintro ⟨rfl, _, hnull | ⟨holds, hshown⟩, rfl⟩
    · simp only [mappingOf, hnull, outcome_pure]
      rfl
    · rw [mappingOf]
      split
      · exact absurd ‹_› (Settings.get_ne_null holds)
      · rename_i entries' holds' _
        cases holds.symm.trans holds'
        exact outcome_bind_eq_ok_iff.mpr
          ⟨_, h', (outcome_mapM_eq_ok_iff hentry).mpr ⟨rfl, hshown⟩, rfl⟩
      · rename_i hno
        exact absurd holds (hno _)

end Config

end BitcodeWrapper
