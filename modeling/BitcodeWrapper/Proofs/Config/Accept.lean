import BitcodeWrapper.Proofs.Config.Load
import BitcodeWrapper.Proofs.Config.Settings

/-! Which files are accepted as configurations, and what is taken from them. The conditions are on what the
file says and on what the two tools answer; a file that fails any of them is refused. -/
namespace BitcodeWrapper.Config
open BitcodeWrapper.Action Yaml
open Probe (Answers)

variable {reader : Reader} {runner : Runner} {s : Settings} {name path : String} {text whole : LooseText}
  {seed : Int} {isDryRun retainsWorkspace : Bool} {c : Configuration LooseText} {h h' h₁ h₂ : Host}

theorem outcome_seedOf_eq_ok_iff :
    outcome (seedOf s) h = (.ok seed, h') ↔ h' = h ∧ s.get "seed" = .int seed ∧ seed ≠ 0 := by
  rw [seedOf]
  split
  · rename_i n hseed
    split
    · rename_i hzero
      refine iff_of_false (by simp [Action.refuse]) ?_
      rintro ⟨-, hgiven, hne⟩
      cases hseed.symm.trans hgiven
      exact hne hzero
    · rename_i hne
      constructor
      · rintro ⟨⟩
        exact ⟨rfl, hseed, hne⟩
      · rintro ⟨rfl, hgiven, -⟩
        cases hseed.symm.trans hgiven
        rfl
  · rename_i hno
    refine iff_of_false (by simp [Action.refuse]) ?_
    rintro ⟨-, hgiven, -⟩
    exact hno _ hgiven

theorem outcome_expandTool_eq_ok_iff :
    outcome (expandTool name text) h = (.ok whole, h') ↔ h' = h ∧ h.expandLoose text = .ok whole := by
  simp only [expandTool, outcome_bind, outcome_get]
  rcases hexpand : h.expandLoose text with fault | found
  · cases fault <;> simp [Action.refuse]
  · simp only [outcome_pure, Prod.mk.injEq, Except.ok.injEq, eq_comm (a := h)]
    exact and_comm

/-- A setting names a tool, and its text leads to that path. -/
structure Settings.Names (s : Settings) (name : String) (h : Host) (path : LooseText) : Prop where
  given : s.document.isNothing (s.get name) = false
  expands : ∃ text, s.document.text? (s.get name) = some text ∧ h.expandLoose text = .ok path

/-- The setting for the driver is empty, or it names a directory or a tool that says it is a driver. -/
inductive DriverAccepted (runner : Runner) (s : Settings) (h : Host) : Option LooseText → Host → Prop
  | nothing (isNothing : s.document.isNothing (s.get "clang") = true) :
      DriverAccepted runner s h none h
  | directory {path : LooseText} (named : s.Names "clang" h path)
      (isDirectory : h.isLooseDirectory path = true) :
      DriverAccepted runner s h (some path) (h.accept (h.ownRecord .debug ("clang directory is " ++ path.shown)))
  | tool {path : LooseText} {h' : Host} (named : s.Names "clang" h path)
      (isFile : h.isLooseDirectory path = false) (answers : Answers runner Probe.compiler path h h') :
      DriverAccepted runner s h (some path) h'

/-- The setting for the optimizer names a tool that says it is one. -/
structure OptimizerAccepted (runner : Runner) (s : Settings) (h : Host) (path : LooseText) (h' : Host) :
    Prop where
  named : s.Names "opt" h path
  answers : Answers runner Probe.optimizer path h h'

/-- The text of a tool that is named, or nothing. -/
theorem outcome_toolText_eq_ok_iff {found : Option LooseText} :
    outcome (toolText? s name) h = (.ok found, h') ↔ h' = h ∧
      ((s.document.isNothing (s.get name) = true ∧ found = none) ∨
        s.document.isNothing (s.get name) = false ∧
          ∃ text, s.document.text? (s.get name) = some text ∧ found = some text) := by
  rw [toolText?]
  cases hnothing : s.document.isNothing (s.get name) with
  | true =>
    simp only [↓reduceIte, outcome_pure, Prod.mk.injEq, Except.ok.injEq, true_and, Bool.true_eq_false,
      false_and, or_false, eq_comm (a := h), eq_comm (a := none)]
    exact and_comm
  | false =>
    simp only [Bool.false_eq_true, ↓reduceIte, outcome_bind_eq_ok_iff, outcome_textOf_eq_ok_iff,
      outcome_pure, false_and, true_and, false_or]
    constructor
    · rintro ⟨text, _, ⟨rfl, htext⟩, ⟨⟩⟩
      exact ⟨rfl, text, htext, rfl⟩
    · rintro ⟨rfl, text, htext, rfl⟩
      exact ⟨text, h', ⟨rfl, htext⟩, rfl⟩

/-- Where a tool is found that is named. -/
theorem names_iff : s.Names name h whole ↔ ∃ text,
    outcome (toolText? s name) h = (.ok (some text), h) ∧
      outcome (expandTool name text) h = (.ok whole, h) := by
  simp only [outcome_toolText_eq_ok_iff, outcome_expandTool_eq_ok_iff, true_and, reduceCtorEq, and_false,
    false_or, Option.some.injEq]
  constructor
  · rintro ⟨hgiven, text, htext, hexpand⟩
    exact ⟨text, ⟨hgiven, text, htext, rfl⟩, hexpand⟩
  · rintro ⟨text, ⟨hgiven, _, htext, rfl⟩, hexpand⟩
    exact ⟨hgiven, text, htext, hexpand⟩

/-- The path of a tool that is named, or nothing. -/
theorem outcome_toolPath_eq_ok_iff {found : Option LooseText} :
    outcome (toolPath? s name) h = (.ok found, h') ↔ h' = h ∧
      ((s.document.isNothing (s.get name) = true ∧ found = none) ∨
        ∃ path, s.Names name h path ∧ found = some path) := by
  rw [toolPath?]
  constructor
  · intro hout
    obtain ⟨given, k, htext, hrest⟩ := outcome_bind_eq_ok_iff.mp hout
    obtain ⟨rfl, ⟨hnothing, rfl⟩ | ⟨-, text, -, rfl⟩⟩ := outcome_toolText_eq_ok_iff.mp htext
    · cases hrest
      exact ⟨rfl, .inl ⟨hnothing, rfl⟩⟩
    · obtain ⟨path, k', hexpand, hend⟩ := outcome_bind_eq_ok_iff.mp hrest
      obtain ⟨rfl, -⟩ := outcome_expandTool_eq_ok_iff.mp hexpand
      cases hend
      exact ⟨rfl, .inr ⟨path, names_iff.mpr ⟨text, htext, hexpand⟩, rfl⟩⟩
  · rintro ⟨rfl, ⟨hnothing, rfl⟩ | ⟨path, hnamed, rfl⟩⟩
    · have htext : outcome (toolText? s name) h' = (.ok none, h') :=
        outcome_toolText_eq_ok_iff.mpr ⟨rfl, .inl ⟨hnothing, rfl⟩⟩
      simp only [outcome_bind, htext, outcome_pure]
    · obtain ⟨text, htext, hexpand⟩ := names_iff.mp hnamed
      simp only [outcome_bind, htext, hexpand, outcome_pure]

theorem outcome_driverOf_eq_ok_iff {driver : Option LooseText} :
    outcome (driverOf runner s) h = (.ok driver, h') ↔ DriverAccepted runner s h driver h' := by
  constructor
  · intro hout
    obtain ⟨found, k, hpath, hrest⟩ := outcome_bind_eq_ok_iff.mp hout
    obtain ⟨rfl, ⟨hnothing, rfl⟩ | ⟨path, hnamed, rfl⟩⟩ := outcome_toolPath_eq_ok_iff.mp hpath
    · cases hrest
      exact .nothing hnothing
    · cases hdirectory : k.isLooseDirectory path with
      | true =>
        simp only [outcome_bind, outcome_get, hdirectory, ↓reduceIte, outcome_debug,
          outcome_pure] at hrest
        cases hrest
        exact .directory hnamed hdirectory
      | false =>
        rw [outcome_bind, outcome_get] at hrest
        simp only [hdirectory, Bool.false_eq_true, ↓reduceIte] at hrest
        obtain ⟨version, k', hversion, hend⟩ := outcome_bind_eq_ok_iff.mp hrest
        cases hend
        exact .tool hnamed hdirectory (Probe.outcome_versionText_eq_ok_iff.mp ⟨version, hversion⟩)
  · intro haccepted
    cases haccepted with
    | nothing hnothing =>
      have hpath : outcome (toolPath? s "clang") h = (.ok none, h) :=
        outcome_toolPath_eq_ok_iff.mpr ⟨rfl, .inl ⟨hnothing, rfl⟩⟩
      simp only [driverOf, outcome_bind, hpath, outcome_pure]
    | directory hnamed hdirectory =>
      have hpath := outcome_toolPath_eq_ok_iff.mpr ⟨rfl, .inr ⟨_, hnamed, rfl⟩⟩
      simp only [driverOf, outcome_bind, hpath, outcome_get, outcome_pure, hdirectory, ↓reduceIte,
        outcome_debug]
    | tool hnamed hfile hanswers =>
      have hpath := outcome_toolPath_eq_ok_iff.mpr ⟨rfl, .inr ⟨_, hnamed, rfl⟩⟩
      obtain ⟨version, hversion⟩ := Probe.outcome_versionText_eq_ok_iff.mpr hanswers
      simp only [driverOf, outcome_bind, hpath, outcome_get, outcome_pure, hfile, Bool.false_eq_true,
        ↓reduceIte, hversion]

theorem outcome_optimizerOf_eq_ok_iff :
    outcome (optimizerOf runner s) h = (.ok whole, h') ↔ OptimizerAccepted runner s h whole h' := by
  constructor
  · intro hout
    obtain ⟨found, k, hpath, hrest⟩ := outcome_bind_eq_ok_iff.mp hout
    obtain ⟨rfl, ⟨-, rfl⟩ | ⟨found, hnamed, rfl⟩⟩ := outcome_toolPath_eq_ok_iff.mp hpath
    · exact nomatch hrest
    · obtain ⟨version, k', hversion, hend⟩ := outcome_bind_eq_ok_iff.mp hrest
      cases hend
      exact ⟨hnamed, Probe.outcome_versionText_eq_ok_iff.mp ⟨version, hversion⟩⟩
  · rintro ⟨hnamed, hanswers⟩
    have hpath := outcome_toolPath_eq_ok_iff.mpr ⟨rfl, .inr ⟨_, hnamed, rfl⟩⟩
    obtain ⟨version, hversion⟩ := Probe.outcome_versionText_eq_ok_iff.mpr hanswers
    simp only [optimizerOf, outcome_bind, hpath, hversion, outcome_pure]

/-- The arguments of the optimizer are those of three settings, in this order. -/
structure GivesArguments (s : Settings) (passes given : List LooseText)
    (pairs : List (LooseText × LooseText)) : Prop where
  passes : s.HoldsTexts "passes" passes
  given : s.HoldsTexts "opt-args" given
  pairs : s.HoldsPairs "opt-extra-args" pairs

def assignment (pair : LooseText × LooseText) : LooseText := pair.1 ++ ("=" : LooseText) ++ pair.2

theorem outcome_optimizerArgumentsOf_eq_ok_iff {arguments : List LooseText} :
    outcome (optimizerArgumentsOf s) h = (.ok arguments, h') ↔ h' = h ∧ ∃ passes given pairs,
      GivesArguments s passes given pairs ∧
        arguments = passesFlag passes ++ given ++ (Bindings.ofPairs pairs).map assignment := by
  simp only [optimizerArgumentsOf, outcome_bind_eq_ok_iff, outcome_listOf_eq_ok_iff,
    outcome_mappingOf_eq_ok_iff, outcome_pure]
  constructor
  · rintro ⟨passes, _, ⟨rfl, hpasses⟩, given, _, ⟨rfl, hgiven⟩, _, _, ⟨rfl, pairs, hpairs, rfl⟩, ⟨⟩⟩
    exact ⟨rfl, passes, given, pairs, ⟨hpasses, hgiven, hpairs⟩, rfl⟩
  · rintro ⟨rfl, passes, given, pairs, ⟨hpasses, hgiven, hpairs⟩, rfl⟩
    exact ⟨passes, h', ⟨rfl, hpasses⟩, given, h', ⟨rfl, hgiven⟩, _, h', ⟨rfl, pairs, hpairs, rfl⟩, rfl⟩

/-- The machine after the record of a configuration, which may be left out. -/
@[irreducible] def recorded (c : Configuration LooseText) (h : Host) : Host := (outcome (record c) h).2

theorem recordsTo_recorded (c : Configuration LooseText) (h : Host) : Host.RecordsTo h (recorded c h) := by
  unfold recorded record
  generalize (Decimal.integerText? c.seed).isSome = isWritable
  cases isWritable with
  | true => exact .single h _
  | false => exact .refl

theorem outcome_record (c : Configuration LooseText) (h : Host) :
    outcome (record c) h = (.ok (), recorded c h) := by
  unfold recorded record
  generalize (Decimal.integerText? c.seed).isSome = isWritable
  cases isWritable <;> rfl

theorem outcome_record_eq_ok_iff {u : Unit} :
    outcome (record c) h = (.ok u, h') ↔ h' = recorded c h := by
  rw [outcome_record]
  exact ⟨fun heq => (Prod.mk.inj heq).2.symm, fun heq => heq ▸ rfl⟩

/-- What a configuration takes from its settings. -/
structure Gives (s : Settings) (c : Configuration LooseText) : Prop where
  seed : s.get "seed" = .int c.seed ∧ c.seed ≠ 0
  arguments : ∃ passes given pairs, GivesArguments s passes given pairs ∧
    c.optimizerArguments = passesFlag passes ++ given ++ (Bindings.ofPairs pairs).map assignment
  environment : ∃ pairs, s.HoldsPairs "opt-env" pairs ∧
    c.optimizerEnvironment = Bindings.ofPairs pairs

/-- The tools of a configuration have answered, one after the other. -/
def ToolsAnswer (runner : Runner) (s : Settings) (h : Host) (driver : Option LooseText)
    (optimizer : LooseText) (h' : Host) : Prop :=
  ∃ h₁, DriverAccepted runner s h driver h₁ ∧ OptimizerAccepted runner s h₁ optimizer h'

theorem outcome_ofFile_eq_ok_iff :
    outcome (ofFile reader runner path isDryRun retainsWorkspace) h = (.ok c, h') ↔ ∃ text s h₁,
      IsText h path text ∧ Spells reader text s ∧ Gives s c ∧
      ToolsAnswer runner s h c.driver c.optimizer h₁ ∧
      c.isDryRun = isDryRun ∧ c.retainsWorkspace = retainsWorkspace ∧ h' = recorded c h₁ := by
  simp only [ofFile, outcome_bind_eq_ok_iff, outcome_fileText_eq_ok_iff, outcome_settings_eq_ok_iff,
    outcome_seedOf_eq_ok_iff, outcome_driverOf_eq_ok_iff, outcome_optimizerOf_eq_ok_iff,
    outcome_optimizerArgumentsOf_eq_ok_iff, outcome_mappingOf_eq_ok_iff, outcome_record_eq_ok_iff,
    outcome_pure]
  constructor
  · rintro ⟨text, _, ⟨rfl, htext⟩, s, _, ⟨rfl, hspells⟩, seed, _, ⟨rfl, hseed⟩, hload⟩
    obtain ⟨driver, h₁, hdriver, optimizer, h₂, hoptimizer, hload⟩ := hload
    obtain ⟨_, _, ⟨rfl, passes, given, pairs, hgives, rfl⟩, hload⟩ := hload
    obtain ⟨_, _, ⟨rfl, own, hown, rfl⟩, _, _, rfl, ⟨⟩⟩ := hload
    refine ⟨text, s, _, htext, hspells, ?_, ⟨h₁, hdriver, hoptimizer⟩, rfl, rfl, rfl⟩
    exact ⟨hseed, ⟨passes, given, pairs, hgives, rfl⟩, ⟨own, hown, rfl⟩⟩
  · rintro ⟨text, s, h₂, htext, hspells, hgiven, ⟨h₁, hdriver, hoptimizer⟩, rfl, rfl, rfl⟩
    obtain ⟨hseed, ⟨passes, given, pairs, hgives, harguments⟩, ⟨own, hown, henvironment⟩⟩ := hgiven
    obtain ⟨seed, driver, optimizer, arguments, environment, retains, isDry⟩ := c
    dsimp only at hseed hdriver hoptimizer harguments henvironment
    refine ⟨text, h, ⟨rfl, htext⟩, s, h, ⟨rfl, hspells⟩, seed, h, ⟨rfl, hseed⟩, ?_⟩
    refine ⟨driver, h₁, hdriver, optimizer, h₂, hoptimizer, ?_⟩
    refine ⟨arguments, h₂, ⟨rfl, passes, given, pairs, hgives, harguments⟩, ?_⟩
    exact ⟨environment, h₂, ⟨rfl, own, hown, henvironment⟩, (), _, rfl, rfl⟩

end BitcodeWrapper.Config
