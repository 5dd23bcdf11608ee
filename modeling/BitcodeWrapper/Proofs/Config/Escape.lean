import BitcodeWrapper.Proofs.Config.Assumption
import BitcodeWrapper.Proofs.Config.Probes

/-! Files that are neither accepted nor refused. What is wrong with them is not taken for an error in the
configuration, and its fault gets past all who handle such errors. There is one way for each kind of datum
that is turned into another one without a look at whether it can be. -/
namespace BitcodeWrapper.Config
open BitcodeWrapper.Action Yaml

variable {α β : Type} {reader : Reader} {runner : Runner} {s : Settings} {name path text : String}
  {loose : LooseText} {P Q : Prop} {isDryRun retainsWorkspace : Bool} {fault : Fault} {h h' : Host}

/-- A fault that comes out and is no error in the configuration. -/
def LetsOut (x : Action α) (h : Host) (fault : Fault) : Prop :=
  (∃ h', outcome x h = (.error fault, h')) ∧ ∀ cause, fault ≠ .failure (.configuration cause)

theorem letsOut_iff_of_error {x : Action α} {raised : Fault} (hout : outcome x h = (.error raised, h')) :
    LetsOut x h fault ↔ fault = raised ∧ ∀ cause, raised ≠ .failure (.configuration cause) := by
  constructor
  · rintro ⟨hraises, hother⟩
    obtain rfl := (raises_iff_of_error hout).mp hraises
    exact ⟨rfl, hother⟩
  · rintro ⟨rfl, hother⟩
    exact ⟨⟨h', hout⟩, hother⟩

theorem letsOut_iff_of_invalidValue {x : Action α} (hout : outcome x h = (.error .invalidValue, h')) :
    LetsOut x h fault ↔ fault = .invalidValue :=
  (letsOut_iff_of_error hout).trans (and_iff_left fun _ => nofun)

theorem not_letsOut_of_ok {x : Action α} {a : α} (hout : outcome x h = (.ok a, h')) :
    ¬ LetsOut x h fault := fun hlets => not_raises_of_ok hout hlets.1

theorem not_letsOut_of_refused {x : Action α} {cause : ConfigurationError}
    (hout : outcome x h = (.error (.failure (.configuration cause)), h')) : ¬ LetsOut x h fault := by
  rw [letsOut_iff_of_error hout]
  exact fun hboth => hboth.2 cause rfl

theorem letsOut_bind_iff {x : Action α} {f : α → Action β} : LetsOut (x >>= f) h fault ↔
    LetsOut x h fault ∨ ∃ a h₁, outcome x h = (.ok a, h₁) ∧ LetsOut (f a) h₁ fault := by
  constructor
  · rintro ⟨hraises, hother⟩
    obtain hfirst | ⟨a, h₁, hout, hrest⟩ := raises_bind_iff.mp hraises
    · exact .inl ⟨hfirst, hother⟩
    · exact .inr ⟨a, h₁, hout, hrest, hother⟩
  · rintro (⟨hfirst, hother⟩ | ⟨a, h₁, hout, hrest, hother⟩)
    · exact ⟨raises_bind_iff.mpr (.inl hfirst), hother⟩
    · exact ⟨raises_bind_iff.mpr (.inr ⟨a, h₁, hout, hrest⟩), hother⟩

/-- On this machine nothing goes wrong but the configuration. -/
def RefusesOnly (x : Action α) (h : Host) : Prop :=
  ∀ fault h', outcome x h = (.error fault, h') → ∃ cause, fault = .failure (.configuration cause)

theorem refusesOnly_iff {x : Action α} : RefusesOnly x h ↔ ∀ fault, ¬ LetsOut x h fault := by
  constructor
  · rintro honly fault ⟨⟨h', hout⟩, hother⟩
    obtain ⟨cause, hcause⟩ := honly fault h' hout
    exact hother cause hcause
  · intro hnone fault h' hout
    by_contra hno
    exact hnone fault ⟨⟨h', hout⟩, fun cause hcause => hno ⟨cause, hcause⟩⟩

/-- A computation that does nothing but to make a value, or to fail for want of one. -/
def FailsIff (P : Prop) (x : Action α) : Prop :=
  ∀ h, (P ∧ outcome x h = (.error .invalidValue, h)) ∨ (¬ P ∧ ∃ a, outcome x h = (.ok a, h))

namespace FailsIff

theorem bind {x : Action α} {f : α → Action β} (hx : FailsIff P x) (hf : ∀ a, FailsIff Q (f a)) :
    FailsIff (P ∨ Q) (x >>= f) := by
  intro h
  rw [outcome_bind]
  obtain ⟨hp, hout⟩ | ⟨hp, a, hout⟩ := hx h <;> rw [hout]
  · exact .inl ⟨.inl hp, rfl⟩
  · obtain ⟨hq, hout⟩ | ⟨hq, b, hout⟩ := hf a h
    · exact .inl ⟨.inr hq, hout⟩
    · exact .inr ⟨not_or.mpr ⟨hp, hq⟩, b, hout⟩

theorem pure (a : α) : FailsIff False (Pure.pure a : Action α) := fun _ => .inr ⟨id, a, rfl⟩

theorem congr {x : Action α} (hx : FailsIff P x) (hpq : P ↔ Q) : FailsIff Q x :=
  propext hpq ▸ hx

theorem mapM {P : α → Prop} {f : α → Action β} (hf : ∀ a, FailsIff (P a) (f a)) (as : List α) :
    FailsIff (∃ a ∈ as, P a) (as.mapM f) := by
  induction as with
  | nil =>
    rw [List.mapM_nil]
    exact (pure []).congr (by simp)
  | cons a as ih =>
    rw [List.mapM_cons]
    exact ((hf a).bind fun _ => ih.bind fun _ => pure _).congr (by simp)

theorem letsOut_iff {x : Action α} (hx : FailsIff P x) :
    LetsOut x h fault ↔ fault = .invalidValue ∧ P := by
  obtain ⟨hp, hout⟩ | ⟨hp, a, hout⟩ := hx h
  · exact (letsOut_iff_of_invalidValue hout).trans (and_iff_left hp).symm
  · exact iff_of_false (not_letsOut_of_ok hout) fun hboth => hp hboth.2

end FailsIff

theorem failsIff_textOf (v : Value) : FailsIff (s.document.text? v = none) (s.textOf v) := by
  intro h
  rw [Settings.textOf]
  cases s.document.text? v with
  | none => exact .inl ⟨rfl, rfl⟩
  | some text => exact .inr ⟨Option.some_ne_none text, text, rfl⟩

theorem failsIff_valueText (v : Value) :
    FailsIff (v ≠ .null ∧ s.document.text? v = none) (valueText s v) := by
  rw [valueText.eq_def]
  split
  · exact (FailsIff.pure _).congr (by simp)
  · rename_i hvalue
    exact (failsIff_textOf v).congr ⟨fun hnone => ⟨hvalue, hnone⟩, And.right⟩

namespace Settings

/-- A list with an item that cannot be written. -/
def ListUnwritable (s : Settings) (name : String) : Prop :=
  ∃ items, s.collection? name = some (.list items) ∧ ∃ v ∈ items, s.document.text? v = none

/-- A mapping with a key or a value that cannot be written. A key can go without a value. -/
def MappingUnwritable (s : Settings) (name : String) : Prop :=
  ∃ entries, s.collection? name = some (.mapping entries) ∧ ∃ entry ∈ entries,
    s.document.text? entry.1 = none ∨ entry.2 ≠ .null ∧ s.document.text? entry.2 = none

end Settings

/-- A setting that is a collection lets out what its reading lets out. -/
theorem letsOut_listOf_iff :
    LetsOut (listOf s name) h fault ↔ fault = .invalidValue ∧ s.ListUnwritable name := by
  rw [listOf]
  split
  · rename_i hnull
    refine iff_of_false (not_letsOut_of_ok rfl) ?_
    rintro ⟨-, items, holds, -⟩
    exact Settings.get_ne_null holds hnull
  · rename_i items holds _
    rw [(FailsIff.mapM failsIff_textOf items).letsOut_iff, Settings.ListUnwritable, holds]
    simp
  · rename_i hno
    refine iff_of_false (not_letsOut_of_refused rfl) ?_
    rintro ⟨-, items, holds, -⟩
    exact hno items holds

theorem letsOut_mappingOf_iff :
    LetsOut (mappingOf s name) h fault ↔ fault = .invalidValue ∧ s.MappingUnwritable name := by
  have hentry : ∀ entry : Value × Value, FailsIff
      (s.document.text? entry.1 = none ∨ entry.2 ≠ .null ∧ s.document.text? entry.2 = none)
      (do return (← s.textOf entry.1, ← valueText s entry.2) : Action (LooseText × LooseText)) := by
    intro entry
    refine ((failsIff_textOf entry.1).bind fun key => ?_).congr Iff.rfl
    exact ((failsIff_valueText entry.2).bind fun value => .pure _).congr (iff_of_eq (or_false _))
  rw [mappingOf]
  split
  · rename_i hnull
    refine iff_of_false (not_letsOut_of_ok rfl) ?_
    rintro ⟨-, entries, holds, -⟩
    exact Settings.get_ne_null holds hnull
  · rename_i entries holds _
    have hall := (FailsIff.mapM hentry entries).bind fun pairs => FailsIff.pure (Bindings.ofPairs pairs)
    rw [hall.letsOut_iff, Settings.MappingUnwritable, holds]
    simp
  · rename_i hno
    refine iff_of_false (not_letsOut_of_refused rfl) ?_
    rintro ⟨-, entries, holds, -⟩
    exact hno entries holds

theorem letsOut_fileText_iff : LetsOut (fileText path) h fault ↔
    (Files.hasNul path = true ∧ fault = .invalidValue) ∨
      Files.hasNul path = false ∧ fault = .notText ∧
        ∃ bytes, h.files.read h.here path = .ok bytes ∧ Text.Utf8.decode? bytes = none := by
  cases hnul : Files.hasNul path with
  | true =>
    have hout : outcome (fileText path) h = (.error .invalidValue, h) := by
      simp only [fileText, hnul, ↓reduceIte, outcome_bind, outcome_throw]
    simp [letsOut_iff_of_invalidValue hout]
  | false =>
    rcases hread : h.files.read h.here path with e | bytes
    · have hout : outcome (fileText path) h = (.error (.failure (.configuration
          (.unreadable (.on e path)))), h) := by
        simp only [fileText, hnul, Bool.false_eq_true, ↓reduceIte, outcome_bind, outcome_get, hread]
        rfl
      simp [not_letsOut_of_refused hout]
    · rcases hdecode : Text.Utf8.decode? bytes with _ | decoded
      · have hout : outcome (fileText path) h = (.error .notText, h) := by
          simp only [fileText, hnul, Bool.false_eq_true, ↓reduceIte, outcome_bind, outcome_get, hread, hdecode,
            outcome_throw]
        simp [letsOut_iff_of_error hout, hdecode]
      · have hout : outcome (fileText path) h =
            (.ok (String.ofList (Text.withNewlines decoded.toList)), h) := by
          simp only [fileText, hnul, Bool.false_eq_true, ↓reduceIte, outcome_bind, outcome_get, hread, hdecode,
            outcome_pure]
        simp [not_letsOut_of_ok hout, hdecode]

theorem letsOut_settings_iff : LetsOut (settings reader text) h fault ↔ fault = .invalidValue ∧
    Text.isAllBlank text = false ∧ ∃ e, reader.read text = .error e ∧ e ≠ .illFormed := by
  cases hblank : Text.isAllBlank text with
  | true =>
    have hout : outcome (settings reader text) h = (.error (.failure (.configuration .blank)), h) := by
      simp only [settings, hblank, ↓reduceIte, outcome_bind]
      rfl
    exact iff_of_false (not_letsOut_of_refused hout) (by simp)
  | false =>
    simp only [settings, hblank, Bool.false_eq_true, ↓reduceIte]
    rcases hread : reader.read text with e | d
    · cases e with
      | illFormed => exact iff_of_false (not_letsOut_of_refused rfl) (by simp)
      | noValue | tooDeep => exact (letsOut_iff_of_invalidValue rfl).trans (by simp)
    · refine iff_of_false ?_ (by simp)
      dsimp only
      split
      · exact not_letsOut_of_ok rfl
      · exact not_letsOut_of_refused rfl

theorem not_letsOut_seedOf : ¬ LetsOut (seedOf s) h fault := by
  rw [seedOf]
  split
  · split
    · exact not_letsOut_of_refused rfl
    · exact not_letsOut_of_ok rfl
  · exact not_letsOut_of_refused rfl

theorem letsOut_toolText_iff : LetsOut (toolText? s name) h fault ↔ fault = .invalidValue ∧
    s.document.isNothing (s.get name) = false ∧ s.document.text? (s.get name) = none := by
  rw [toolText?]
  cases hnothing : s.document.isNothing (s.get name) with
  | true =>
    simp only [↓reduceIte]
    exact iff_of_false (not_letsOut_of_ok rfl) (by simp)
  | false =>
    simp only [Bool.false_eq_true, ↓reduceIte]
    have hfails := (@failsIff_textOf s (s.get name)).bind fun text => FailsIff.pure (some text)
    rw [hfails.letsOut_iff]
    simp

/-- An expansion stops at what cannot be asked for, unless its directory is missing. -/
theorem letsOut_expandTool_iff : LetsOut (expandTool name loose) h fault ↔
    fault = .invalidValue ∧ h.expandLoose loose = .error .invalidValue := by
  rcases hexpand : h.expandLoose loose with raised | whole
  · obtain ⟨e, rfl⟩ | ⟨rfl, -⟩ := Host.fault_of_expandLoose hexpand
    · have hout : outcome (expandTool name loose) h =
          (.error (.failure (.configuration (.pathNotExpanded name loose e))), h) := by
        simp only [expandTool, outcome_bind, outcome_get, hexpand]
        rfl
      exact iff_of_false (not_letsOut_of_refused hout) (by simp)
    · have hout : outcome (expandTool name loose) h = (.error .invalidValue, h) := by
        simp only [expandTool, outcome_bind, outcome_get, hexpand, outcome_throw]
      exact (letsOut_iff_of_invalidValue hout).trans (by simp)
  · exact iff_of_false (not_letsOut_of_ok (outcome_expandTool_eq_ok_iff.mpr ⟨rfl, hexpand⟩)) (by simp)

/-- What comes out when a tool is asked: its path cannot be passed on, or its runner raises what the operating
system has not refused. -/
inductive AskEscapes (runner : Runner) (path : LooseText) (h : Host) : Fault → Prop
  | unpassable (unread : path.received? = none) (notPassable : path.isPassable = false) :
      AskEscapes runner path h .invalidValue
  | raised {received : String} {fault : Fault} (isText : path.received? = some received)
      (raises : LetsOut (runner [received, Probe.versionSwitch] none) h fault)
      (notRefused : ∀ e, fault ≠ .os e) : AskEscapes runner path h fault

theorem letsOut_ask_iff : LetsOut (Probe.ask runner loose) h fault ↔ AskEscapes runner loose h fault := by
  cases hreceived : loose.received? with
  | none =>
    obtain ⟨raised, k, hout, -, ⟨hpass, rfl⟩ | ⟨hpass, rfl⟩⟩ :=
      @Probe.outcome_ask_of_not_received runner loose h hreceived
    · rw [letsOut_iff_of_invalidValue hout]
      constructor
      · rintro rfl
        exact .unpassable hreceived hpass
      · intro hescapes
        cases hescapes with
        | unpassable => rfl
        | raised isText => exact nomatch hreceived.symm.trans isText
    · refine iff_of_false (not_letsOut_of_refused hout) fun hescapes => ?_
      cases hescapes with
      | unpassable _ notPassable => exact absurd (hpass.symm.trans notPassable) (by decide)
      | raised isText => exact nomatch hreceived.symm.trans isText
  | some received =>
    have hask := @Probe.outcome_ask_of_received runner loose received h hreceived
    have hescapes_iff : AskEscapes runner loose h fault ↔
        LetsOut (runner [received, Probe.versionSwitch] none) h fault ∧ ∀ e, fault ≠ .os e := by
      constructor
      · intro hescapes
        cases hescapes with
        | unpassable unread => exact nomatch hreceived.symm.trans unread
        | raised isText raises notRefused =>
          cases hreceived.symm.trans isText
          exact ⟨raises, notRefused⟩
      · rintro ⟨hraises, hother⟩
        exact .raised hreceived hraises hother
    rw [hescapes_iff]
    rcases hout : outcome (runner [received, Probe.versionSwitch] none) h with ⟨raised | reply, h₁⟩ <;>
      rw [hout] at hask
    · cases raised with
      | os e =>
        refine iff_of_false (not_letsOut_of_refused hask) ?_
        rintro ⟨hlets, hother⟩
        exact hother e ((letsOut_iff_of_error hout).mp hlets).1
      | failure | ended | notText | invalidValue =>
        rw [letsOut_iff_of_error hout, letsOut_iff_of_error hask]
        refine (and_iff_left_of_imp ?_).symm
        rintro ⟨rfl, -⟩ e
        exact nofun
    · exact iff_of_false (not_letsOut_of_ok hask) fun hboth => not_letsOut_of_ok hout hboth.1

/-- Whatever a tool answers, nothing more comes out. -/
theorem letsOut_versionText_iff {tool : Probe.Tool} :
    LetsOut (Probe.versionText runner tool loose) h fault ↔ AskEscapes runner loose h fault := by
  rw [Probe.versionText, letsOut_bind_iff, letsOut_ask_iff, or_iff_left]
  rintro ⟨reply, h₁, -, hrest⟩
  dsimp only at hrest
  split at hrest
  · exact not_letsOut_of_refused rfl hrest
  · split at hrest
    · exact not_letsOut_of_refused rfl hrest
    · exact not_letsOut_of_ok rfl hrest

/-- A tool is named by what has no text, or by a text that is not to be expanded. -/
inductive Unreachable (s : Settings) (name : String) (h : Host) : Prop
  | unwritable (given : s.document.isNothing (s.get name) = false)
      (noText : s.document.text? (s.get name) = none) : Unreachable s name h
  | unexpandable {text : LooseText} (given : s.document.isNothing (s.get name) = false)
      (hasText : s.document.text? (s.get name) = some text)
      (fails : h.expandLoose text = .error .invalidValue) : Unreachable s name h

theorem letsOut_toolPath_iff :
    LetsOut (toolPath? s name) h fault ↔ fault = .invalidValue ∧ Unreachable s name h := by
  rw [toolPath?, letsOut_bind_iff, letsOut_toolText_iff]
  constructor
  · rintro (⟨rfl, hgiven, hnoText⟩ | ⟨found, k, hfound, hrest⟩)
    · exact ⟨rfl, .unwritable hgiven hnoText⟩
    · obtain ⟨rfl, ⟨-, rfl⟩ | ⟨hgiven, text, htext, rfl⟩⟩ := outcome_toolText_eq_ok_iff.mp hfound
      · exact absurd hrest (not_letsOut_of_ok rfl)
      · obtain hexpand | ⟨path, k', -, hend⟩ := letsOut_bind_iff.mp hrest
        · obtain ⟨rfl, hfails⟩ := letsOut_expandTool_iff.mp hexpand
          exact ⟨rfl, .unexpandable hgiven htext hfails⟩
        · exact absurd hend (not_letsOut_of_ok rfl)
  · rintro ⟨rfl, hunreachable⟩
    cases hunreachable with
    | unwritable given noText => exact .inl ⟨rfl, given, noText⟩
    | unexpandable given hasText fails =>
      refine .inr ⟨_, h, outcome_toolText_eq_ok_iff.mpr ⟨rfl, .inr ⟨given, _, hasText, rfl⟩⟩, ?_⟩
      exact letsOut_bind_iff.mpr (.inl (letsOut_expandTool_iff.mpr ⟨rfl, fails⟩))

/-- What is wrong with a tool that is named. -/
inductive ToolEscapes (runner : Runner) (s : Settings) (name : String) (h : Host) : Fault → Prop
  | path (unreachable : Unreachable s name h) : ToolEscapes runner s name h .invalidValue
  | query {path : LooseText} {fault : Fault} (named : s.Names name h path)
      (asked : name = "clang" → h.isLooseDirectory path = false)
      (escapes : AskEscapes runner path h fault) : ToolEscapes runner s name h fault

/-- Whatever is done with the path of a tool, it is found before that. -/
theorem letsOut_tool_iff {f : Option LooseText → Action α} (hnone : ¬ LetsOut (f none) h fault)
    (hsome : ∀ path, LetsOut (f (some path)) h fault ↔
      (name = "clang" → h.isLooseDirectory path = false) ∧ AskEscapes runner path h fault) :
    LetsOut (toolPath? s name >>= f) h fault ↔ ToolEscapes runner s name h fault := by
  rw [letsOut_bind_iff, letsOut_toolPath_iff]
  constructor
  · rintro (⟨rfl, hunreachable⟩ | ⟨found, k, hfound, hrest⟩)
    · exact .path hunreachable
    · obtain ⟨rfl, ⟨-, rfl⟩ | ⟨path, hnamed, rfl⟩⟩ := outcome_toolPath_eq_ok_iff.mp hfound
      · exact absurd hrest hnone
      · obtain ⟨hasked, hescapes⟩ := (hsome path).mp hrest
        exact .query hnamed hasked hescapes
  · intro hescapes
    cases hescapes with
    | path unreachable => exact .inl ⟨rfl, unreachable⟩
    | query named asked escapes =>
      refine .inr ⟨_, h, outcome_toolPath_eq_ok_iff.mpr ⟨rfl, .inr ⟨_, named, rfl⟩⟩, ?_⟩
      exact (hsome _).mpr ⟨asked, escapes⟩

/-- What comes after a version text lets nothing out. -/
theorem letsOut_versionText_bind_iff {tool : Probe.Tool} {a : α} :
    LetsOut (Probe.versionText runner tool loose >>= fun _ => pure a) h fault ↔
      AskEscapes runner loose h fault := by
  rw [letsOut_bind_iff, letsOut_versionText_iff, or_iff_left]
  exact fun ⟨_, _, _, hrest⟩ => not_letsOut_of_ok rfl hrest

/-- A directory is not asked for its version. -/
theorem letsOut_driverOf_iff : LetsOut (driverOf runner s) h fault ↔ ToolEscapes runner s "clang" h fault := by
  refine letsOut_tool_iff (not_letsOut_of_ok rfl) fun path => ?_
  have hlook : ∀ use : Host → Action (Option LooseText), LetsOut (get >>= use) h fault ↔ LetsOut (use h) h fault :=
    fun _ => Iff.rfl
  rw [hlook]
  cases h.isLooseDirectory path with
  | true =>
    refine iff_of_false ?_ fun hboth => nomatch hboth.1 rfl
    exact not_letsOut_of_ok rfl
  | false =>
    refine letsOut_versionText_bind_iff.trans ?_
    simp

theorem letsOut_optimizerOf_iff :
    LetsOut (optimizerOf runner s) h fault ↔ ToolEscapes runner s "opt" h fault := by
  refine letsOut_tool_iff (not_letsOut_of_refused rfl) fun path => ?_
  rw [letsOut_versionText_bind_iff]
  simp

/-- What is wrong with the settings from which the arguments of the optimizer are put together. -/
inductive ArgumentsUnwritable (s : Settings) : Prop
  | passes (unwritable : s.ListUnwritable "passes") : ArgumentsUnwritable s
  | given {passes : List LooseText} (before : s.HoldsTexts "passes" passes)
      (unwritable : s.ListUnwritable "opt-args") : ArgumentsUnwritable s
  | pairs {passes given : List LooseText} (before : s.HoldsTexts "passes" passes)
      (between : s.HoldsTexts "opt-args" given) (unwritable : s.MappingUnwritable "opt-extra-args") :
      ArgumentsUnwritable s

theorem letsOut_optimizerArgumentsOf_iff :
    LetsOut (optimizerArgumentsOf s) h fault ↔ fault = .invalidValue ∧ ArgumentsUnwritable s := by
  simp only [optimizerArgumentsOf, letsOut_bind_iff, letsOut_listOf_iff, letsOut_mappingOf_iff,
    outcome_listOf_eq_ok_iff, not_letsOut_of_ok (outcome_pure _ _), and_false, exists_false, or_false]
  constructor
  · rintro (⟨hfault, hpasses⟩ | ⟨passes, _, ⟨rfl, hpasses⟩, hrest⟩)
    · exact ⟨hfault, .passes hpasses⟩
    obtain ⟨hfault, hgiven⟩ | ⟨given, _, ⟨rfl, hgiven⟩, hfault, hpairs⟩ := hrest
    · exact ⟨hfault, .given hpasses hgiven⟩
    · exact ⟨hfault, .pairs hpasses hgiven hpairs⟩
  · rintro ⟨hfault, hpasses | ⟨hpasses, hgiven⟩ | ⟨hpasses, hgiven, hpairs⟩⟩
    · exact .inl ⟨hfault, hpasses⟩
    · exact .inr ⟨_, h, ⟨rfl, hpasses⟩, .inl ⟨hfault, hgiven⟩⟩
    · exact .inr ⟨_, h, ⟨rfl, hpasses⟩, .inr ⟨_, h, ⟨rfl, hgiven⟩, hfault, hpairs⟩⟩

/-- What is wrong with settings whose seed is in order, up to where their reading stops. -/
inductive SettingsEscape (runner : Runner) (s : Settings) (h : Host) : Fault → Prop
  | driver {fault : Fault} (escapes : ToolEscapes runner s "clang" h fault) :
      SettingsEscape runner s h fault
  | optimizer {driver : Option LooseText} {h₁ : Host} {fault : Fault}
      (accepted : DriverAccepted runner s h driver h₁) (escapes : ToolEscapes runner s "opt" h₁ fault) :
      SettingsEscape runner s h fault
  | arguments {driver : Option LooseText} {optimizer : LooseText} {h₁ : Host}
      (answer : ToolsAnswer runner s h driver optimizer h₁) (unwritable : ArgumentsUnwritable s) :
      SettingsEscape runner s h .invalidValue
  | environment {driver : Option LooseText} {optimizer : LooseText} {h₁ : Host} {passes given : List LooseText}
      {pairs : List (LooseText × LooseText)} (answer : ToolsAnswer runner s h driver optimizer h₁)
      (before : GivesArguments s passes given pairs) (unwritable : s.MappingUnwritable "opt-env") :
      SettingsEscape runner s h .invalidValue

/-- What is wrong with a file that is neither accepted nor refused. -/
inductive Escapes (reader : Reader) (runner : Runner) (path : String) (h : Host) : Fault → Prop
  | path (holdsNul : Files.hasNul path = true) : Escapes reader runner path h .invalidValue
  | notText {bytes : Bytes} (plain : Files.hasNul path = false)
      (readable : h.files.read h.here path = .ok bytes) (undecodable : Text.Utf8.decode? bytes = none) :
      Escapes reader runner path h .notText
  | unread {text : String} {e : Yaml.Error} (isText : IsText h path text)
      (notBlank : Text.isAllBlank text = false) (fails : reader.read text = .error e)
      (notIllFormed : e ≠ .illFormed) : Escapes reader runner path h .invalidValue
  | settings {text : String} {s : Settings} {seed : Int} {fault : Fault} (isText : IsText h path text)
      (spells : Spells reader text s) (isSeed : s.get "seed" = .int seed ∧ seed ≠ 0)
      (escapes : SettingsEscape runner s h fault) : Escapes reader runner path h fault

/-- The reading of a file lets a fault out exactly for these reasons. -/
theorem letsOut_ofFile_iff : LetsOut (ofFile reader runner path isDryRun retainsWorkspace) h fault ↔
    Escapes reader runner path h fault := by
  simp only [ofFile, letsOut_bind_iff, letsOut_fileText_iff, letsOut_settings_iff, not_letsOut_seedOf,
    letsOut_driverOf_iff, letsOut_optimizerOf_iff, letsOut_optimizerArgumentsOf_iff, letsOut_mappingOf_iff,
    not_letsOut_of_ok (outcome_record _ _), outcome_fileText_eq_ok_iff, outcome_settings_eq_ok_iff,
    outcome_seedOf_eq_ok_iff,
    outcome_driverOf_eq_ok_iff, outcome_optimizerOf_eq_ok_iff, outcome_optimizerArgumentsOf_eq_ok_iff,
    outcome_mappingOf_eq_ok_iff, not_letsOut_of_ok (outcome_pure _ _), and_false, exists_false, or_false,
    false_or]
  -- What is left is one disjunct a step, in the order of `ofFile`: it fails, or it answers and the rest fails.
  constructor
  · rintro ((⟨hnul, rfl⟩ | ⟨hplain, rfl, bytes, hread, hdecode⟩) | ⟨text, _, ⟨rfl, htext⟩, hrest⟩)
    · exact .path hnul
    · exact .notText hplain hread hdecode
    obtain ⟨rfl, hblank, e, hfails, hnot⟩ | ⟨s, _, ⟨rfl, hspells⟩, seed, _, ⟨rfl, hseed⟩, hrest⟩ := hrest
    · exact .unread htext hblank hfails hnot
    refine .settings htext hspells hseed ?_
    obtain hdriver | ⟨driver, h₁, hdriver, hrest⟩ := hrest
    · exact .driver hdriver
    obtain hoptimizer | ⟨optimizer, h₂, hoptimizer, hrest⟩ := hrest
    · exact .optimizer hdriver hoptimizer
    have hanswer : ToolsAnswer runner s _ driver optimizer h₂ := ⟨h₁, hdriver, hoptimizer⟩
    obtain ⟨rfl, harguments⟩ | ⟨_, _, ⟨rfl, passes, given, pairs, hgiven, -⟩, hrest⟩ := hrest
    · exact .arguments hanswer harguments
    obtain ⟨rfl, henvironment⟩ := hrest
    exact .environment hanswer hgiven henvironment
  · intro hescapes
    cases hescapes with
    | path holdsNul => exact .inl (.inl ⟨holdsNul, rfl⟩)
    | notText plain readable undecodable => exact .inl (.inr ⟨plain, rfl, _, readable, undecodable⟩)
    | unread isText notBlank fails notIllFormed =>
      exact .inr ⟨_, h, ⟨rfl, isText⟩, .inl ⟨rfl, notBlank, _, fails, notIllFormed⟩⟩
    | settings isText spells isSeed escapes =>
      refine .inr ⟨_, h, ⟨rfl, isText⟩, .inr ⟨_, h, ⟨rfl, spells⟩, _, h, ⟨rfl, isSeed⟩, ?_⟩⟩
      cases escapes with
      | driver escapes => exact .inl escapes
      | optimizer accepted escapes => exact .inr ⟨_, _, accepted, .inl escapes⟩
      | arguments answer unwritable =>
        obtain ⟨h₁, hdriver, hoptimizer⟩ := answer
        exact .inr ⟨_, h₁, hdriver, .inr ⟨_, _, hoptimizer, .inl ⟨rfl, unwritable⟩⟩⟩
      | environment answer before unwritable =>
        obtain ⟨h₁, hdriver, hoptimizer⟩ := answer
        refine .inr ⟨_, h₁, hdriver, .inr ⟨_, _, hoptimizer, .inr ?_⟩⟩
        exact ⟨_, _, ⟨rfl, _, _, _, before, rfl⟩, rfl, unwritable⟩

end BitcodeWrapper.Config
