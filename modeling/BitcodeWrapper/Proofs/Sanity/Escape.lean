import BitcodeWrapper.Proofs.Command.BadFile
import BitcodeWrapper.Proofs.Sanity.Finding
import BitcodeWrapper.Sanity.Check

/-! What the sanity check does not get past. There is one way for each program that it tries, and one for each
text that it prints of the file that it reads, besides what is wrong with the file. -/
namespace BitcodeWrapper.Sanity
open BitcodeWrapper.Action Text.Utf8

variable {α β : Type} {reader : Yaml.Reader} {platform file what : String} {named : Option String}
  {path cPath cppPath : LooseText} {line : Int} {c : Configuration LooseText} {fault : Fault} {h h' : Host}

/-- A computation that always has an answer. -/
def AlwaysAnswers (x : Action α) : Prop := ∀ h fault, ¬ Raises x h fault

namespace AlwaysAnswers

theorem bind {x : Action α} {f : α → Action β} (hx : AlwaysAnswers x) (hf : ∀ a, AlwaysAnswers (f a)) :
    AlwaysAnswers (x >>= f) := by
  intro h fault hraises
  obtain hfirst | ⟨a, h₁, -, hrest⟩ := raises_bind_iff.mp hraises
  · exact hx h fault hfirst
  · exact hf a h₁ fault hrest

theorem pure (a : α) : AlwaysAnswers (Pure.pure a) := fun _ _ => not_raises_of_ok rfl

theorem printLine (text : String) : AlwaysAnswers (Action.printLine text) := fun _ _ => not_raises_of_ok rfl

theorem outcome_eq {x : Action Unit} (hx : AlwaysAnswers x) (h : Host) :
    outcome x h = (.ok (), (outcome x h).2) := by
  rcases hout : outcome x h with ⟨fault | a, h₁⟩
  · exact absurd ⟨h₁, hout⟩ (hx h fault)
  · rfl

/-- What always answers before or after the rest raises nothing. -/
theorem raises_bind_iff_left {x : Action α} {f : α → Action β} (hf : ∀ a, AlwaysAnswers (f a)) :
    Raises (x >>= f) h fault ↔ Raises x h fault := by
  rw [raises_bind_iff, or_iff_left]
  exact fun ⟨a, h₁, _, hrest⟩ => hf a h₁ fault hrest

theorem raises_bind_iff_right {x : Action Unit} {f : Unit → Action β} (hx : AlwaysAnswers x) :
    Raises (x >>= f) h fault ↔ Raises (f ()) (outcome x h).2 fault :=
  raises_bind_of_ok (hx.outcome_eq h)

end AlwaysAnswers

/-- A computation that has an answer unless something is not to be printed. -/
def AnswersUnless (P : Prop) (x : Action α) : Prop := ∀ h fault, Raises x h fault ↔ fault = .invalidValue ∧ P

namespace AnswersUnless

variable {P Q : Prop}

theorem bind {x : Action α} {f : α → Action β} (hx : AnswersUnless P x) (hf : ∀ a, AnswersUnless Q (f a)) :
    AnswersUnless (P ∨ Q) (x >>= f) := by
  intro h fault
  rw [raises_bind_iff, hx h fault]
  constructor
  · rintro (⟨rfl, hp⟩ | ⟨a, h₁, -, hrest⟩)
    · exact ⟨rfl, .inl hp⟩
    · obtain ⟨rfl, hq⟩ := (hf a h₁ fault).mp hrest
      exact ⟨rfl, .inr hq⟩
  · rintro ⟨rfl, hboth⟩
    by_cases hp : P
    · exact .inl ⟨rfl, hp⟩
    · obtain ⟨a, h₁, hout⟩ : ∃ a h₁, outcome x h = (.ok a, h₁) :=
        exists_ok_iff.mpr fun fault hraises => hp ((hx h fault).mp hraises).2
      exact .inr ⟨a, h₁, hout, (hf a h₁ _).mpr ⟨rfl, hboth.resolve_left hp⟩⟩

theorem of_alwaysAnswers {x : Action α} (hx : AlwaysAnswers x) : AnswersUnless False x :=
  fun h fault => iff_of_false (hx h fault) And.right

theorem congr {x : Action α} (hx : AnswersUnless P x) (hpq : P ↔ Q) : AnswersUnless Q x := propext hpq ▸ hx

end AnswersUnless

theorem answersUnless_printable (text : LooseText) : AnswersUnless (text.plain? = none) (printable text) := by
  intro h fault
  rw [printable]
  cases text.plain? with
  | some line => exact iff_of_false (not_raises_of_ok rfl) fun hboth => nomatch hboth.2
  | none => exact (raises_iff_of_error rfl).trans (and_iff_left rfl).symm

/-- A report on a tool tells its path. -/
theorem answersUnless_report (what : String) (path : LooseText) (finding : Finding) (line : Int) :
    AnswersUnless (path.plain? = none) (report what path finding line) := by
  rw [report]
  refine ((answersUnless_printable path).bind fun name => ?_).congr (iff_of_eq (or_false _))
  refine .of_alwaysAnswers ?_
  split <;> exact .printLine _

theorem alwaysAnswers_reportRelease : AlwaysAnswers reportRelease :=
  (AlwaysAnswers.printLine _).bind fun _ => .printLine _

theorem alwaysAnswers_reportLogging : AlwaysAnswers reportLogging := by
  have hget : AlwaysAnswers (get : Action Host) := fun _ _ => not_raises_of_ok rfl
  refine hget.bind fun h => (AlwaysAnswers.printLine _).bind fun _ => ?_
  split <;> exact .printLine _

/-- The machine once the report has begun. -/
def begun (h : Host) : Host := (outcome reportLogging (outcome reportRelease h).2).2

/-- The machine once a line has been printed. -/
def printed (text : String) (h : Host) : Host := { h with output := h.output ++ encode (text ++ "\n") }

theorem outcome_printLine (text : String) (h : Host) :
    outcome (Action.printLine text) h = (.ok (), printed text h) := rfl

/-- The machine once it has been explained what a configuration is. -/
def introduced (h : Host) : Host := printed configurationHelp (begun h)

/-- The report is printed and does nothing else. -/
theorem exists_introduced_eq (h : Host) : ∃ output, introduced h = { h with output := output } := by
  unfold introduced begun reportLogging
  simp only [outcome_bind, outcome_get, outcome_printLine]
  split <;> exact ⟨_, rfl⟩

/-- Why the check of a pair of drivers ends without a verdict. -/
inductive DriversEscape (cPath cppPath : LooseText) (h : Host) : Fault → Prop
  | c {fault : Fault} (escapes : TrialEscapes cPath.handed Probe.versionSwitch h fault) :
      DriversEscape cPath cppPath h fault
  | cpp {finding : Finding} {h₁ : Host} {fault : Fault}
      (finds : Finds cPath.handed Probe.versionSwitch h finding h₁)
      (escapes : TrialEscapes cppPath.handed Probe.versionSwitch h₁ fault) :
      DriversEscape cPath cppPath h fault
  | unprintable {cFinding cppFinding : Finding} {h₁ h₂ : Host}
      (cFinds : Finds cPath.handed Probe.versionSwitch h cFinding h₁)
      (cppFinds : Finds cppPath.handed Probe.versionSwitch h₁ cppFinding h₂)
      (notPlain : cPath.plain? = none ∨ cppPath.plain? = none) : DriversEscape cPath cppPath h .invalidValue

theorem raises_checkCompilers_iff :
    Raises (checkCompilers cPath cppPath) h fault ↔ DriversEscape cPath cppPath h fault := by
  have hrest : ∀ c cpp : Finding, AnswersUnless (cPath.plain? = none ∨ cppPath.plain? = none) (do
      report "C compiler" cPath c 0
      report "C++ compiler" cppPath cpp 0
      if !c.isUsable || !cpp.isUsable then Action.printLine defaultDirectoryHelp
      return c.isUsable || cpp.isUsable) := by
    intro c cpp
    refine (answersUnless_report _ _ _ _).bind fun _ => ?_
    refine ((answersUnless_report _ _ _ _).bind fun _ => ?_).congr (iff_of_eq (or_false _))
    refine .of_alwaysAnswers ?_
    split
    · exact (AlwaysAnswers.printLine _).bind fun _ => .pure _
    · exact (AlwaysAnswers.pure _).bind fun _ => .pure _
  rw [checkCompilers, raises_bind_iff, raises_tryExecutable_iff]
  simp only [raises_bind_iff, hrest _ _ _ _, raises_tryExecutable_iff, outcome_tryExecutable_eq_ok_iff]
  constructor
  · rintro (hc | ⟨cFinding, h₁, hfinds, hcpp | ⟨cppFinding, h₂, hfinds', rfl, hloose⟩⟩)
    · exact .c hc
    · exact .cpp hfinds hcpp
    · exact .unprintable hfinds hfinds' hloose
  · intro hescapes
    cases hescapes with
    | c escapes => exact .inl escapes
    | cpp finds escapes => exact .inr ⟨_, _, finds, .inl escapes⟩
    | unprintable cFinds cppFinds notPlain => exact .inr ⟨_, _, cFinds, .inr ⟨_, _, cppFinds, rfl, notPlain⟩⟩

/-- Drivers that cannot be launched show nothing. -/
theorem not_driversEscape {cName cppName : String}
    (hpass : Host.isPassable [cName, Probe.versionSwitch] h.environment = true)
    (hpass' : Host.isPassable [cppName, Probe.versionSwitch] h.environment = true)
    (hnone : h.program? [cName, Probe.versionSwitch] = none)
    (hnone' : h.program? [cppName, Probe.versionSwitch] = none) : ¬ DriversEscape cName cppName h fault := by
  intro hescapes
  cases hescapes with
  | c escapes =>
    rw [LooseText.handed_ofString] at escapes
    exact not_trialEscapes hpass hnone escapes
  | cpp finds escapes =>
    rw [LooseText.handed_ofString] at finds escapes
    obtain ⟨e, hspawn⟩ := refused_of_program?_eq_none hpass hnone
    cases finds with
    | runs started => exact nomatch hspawn.symm.trans started
    | notStarted refused =>
      cases hspawn.symm.trans refused
      exact not_trialEscapes hpass' hnone' escapes
  | unprintable _ _ notPlain => simp at notPlain

/-- The drivers that are tried if none is configured. -/
def unconfigured (h : Host) : String × String :=
  defaultCompilers (h.environment.get? Compiler.defaultDirectoryVariable)

theorem unconfigured_introduced (h : Host) : unconfigured (introduced h) = unconfigured h := by
  obtain ⟨output, hintroduced⟩ := exists_introduced_eq h
  rw [hintroduced]
  rfl

/-- Why the check of a single tool ends without a verdict. -/
inductive ToolEscapes (path : LooseText) (h : Host) : Fault → Prop
  | trial {fault : Fault} (escapes : TrialEscapes path.handed Probe.versionSwitch h fault) :
      ToolEscapes path h fault
  | unprintable {finding : Finding} {h₁ : Host} (finds : Finds path.handed Probe.versionSwitch h finding h₁)
      (notPlain : path.plain? = none) : ToolEscapes path h .invalidValue

theorem raises_checkTool_iff : Raises (checkTool what path line) h fault ↔ ToolEscapes path h fault := by
  have hrest : ∀ finding, AnswersUnless (path.plain? = none) (do
      report what path finding line
      return finding.isUsable) :=
    fun finding => ((answersUnless_report _ _ _ _).bind fun _ =>
      .of_alwaysAnswers (.pure _)).congr (iff_of_eq (or_false _))
  rw [checkTool, raises_bind_iff, raises_tryExecutable_iff]
  simp only [hrest _ _ _, outcome_tryExecutable_eq_ok_iff]
  constructor
  · rintro (htrial | ⟨finding, h₁, hfinds, rfl, hloose⟩)
    · exact .trial htrial
    · exact .unprintable hfinds hloose
  · intro hescapes
    cases hescapes with
    | trial escapes => exact .inl escapes
    | unprintable finds notPlain => exact .inr ⟨_, _, finds, rfl, notPlain⟩

/-- Why the check of the driver of a configuration ends without a verdict. -/
inductive DriverEscapes (h : Host) : Option LooseText → Fault → Prop
  | default {fault : Fault} (escapes : DriversEscape (unconfigured h).1 (unconfigured h).2 h fault) :
      DriverEscapes h none fault
  | directory {path : LooseText} {fault : Fault} (isDirectory : h.isLooseDirectory path = true)
      (escapes : DriversEscape (driverIn path "clang") (driverIn path "clang++") h fault) :
      DriverEscapes h (some path) fault
  | file {path : LooseText} {fault : Fault} (isFile : h.isLooseDirectory path = false)
      (escapes : ToolEscapes path h fault) : DriverEscapes h (some path) fault

theorem outcome_checkDefaultCompilers (h : Host) :
    outcome checkDefaultCompilers h = outcome (checkCompilers (unconfigured h).1 (unconfigured h).2) h := by
  simp only [checkDefaultCompilers, getVariable, outcome_bind, outcome_get, outcome_pure, unconfigured]

theorem raises_checkDefaultCompilers_iff :
    Raises checkDefaultCompilers h fault ↔ DriversEscape (unconfigured h).1 (unconfigured h).2 h fault := by
  rw [Raises, outcome_checkDefaultCompilers]
  exact raises_checkCompilers_iff

theorem raises_checkDriver_iff {driver : Option LooseText} :
    Raises (checkDriver driver) h fault ↔ DriverEscapes h driver fault := by
  cases driver with
  | none =>
    refine raises_checkDefaultCompilers_iff.trans ⟨.default, ?_⟩
    rintro ⟨escapes⟩
    exact escapes
  | some path =>
    have hlook : ∀ use : Host → Action Bool, Raises (get >>= use) h fault ↔ Raises (use h) h fault :=
      fun _ => Iff.rfl
    rw [checkDriver, hlook]
    cases hdirectory : h.isLooseDirectory path with
    | true =>
      refine raises_checkCompilers_iff.trans ⟨.directory hdirectory, fun hescapes => ?_⟩
      cases hescapes with
      | directory isDirectory escapes => exact escapes
      | file isFile => exact absurd (hdirectory.symm.trans isFile) (by decide)
    | false =>
      refine raises_checkTool_iff.trans ⟨.file hdirectory, fun hescapes => ?_⟩
      cases hescapes with
      | directory isDirectory => exact absurd (hdirectory.symm.trans isDirectory) (by decide)
      | file isFile escapes => exact escapes

theorem outcome_loadReported (reader : Yaml.Reader) (file : String) (h : Host) :
    outcome (loadReported reader file) h =
      match outcome (Config.ofFile reader Runner.processes file false false) h with
      | (.ok c, h) => (.ok (some c), h)
      | (.error (.failure cause), h) =>
        if cause.isPrintable then
          (.ok none, printed configurationHelp (printed ("The configuration file " ++ file ++
            " is not usable:\n\n\t" ++ cause.message ++ "\n") h))
        else (.error .invalidValue, h)
      | (.error fault, h) => (.error fault, h) := by
  simp only [loadReported, outcome_bind, outcome_tryCatch]
  rcases outcome (Config.ofFile reader Runner.processes file false false) h with ⟨raised | c, h₁⟩
  · cases raised with
    | failure cause =>
      dsimp only
      cases cause.isPrintable <;> rfl
    | os | ended | notText | invalidValue => rfl
  · rfl

theorem cases_of_loadReported {found : Option (Configuration LooseText)}
    (hout : outcome (loadReported reader file) h = (.ok found, h')) :
    found = none ∨ ∃ c, found = some c ∧
      outcome (Config.ofFile reader Runner.processes file false false) h = (.ok c, h') := by
  rw [outcome_loadReported] at hout
  rcases hload : outcome (Config.ofFile reader Runner.processes file false false) h with ⟨raised | c, h₁⟩ <;>
    rw [hload] at hout
  · cases raised with
    | failure cause =>
      dsimp only at hout
      split at hout
      · cases hout
        exact .inl rfl
      · exact nomatch hout
    | os | ended | notText | invalidValue => exact nomatch hout
  · cases hout
    exact .inr ⟨c, rfl, rfl⟩

/-- Why the report on a file that is to be read ends early: the file escapes, or it is refused and what is said
of it cannot be printed. -/
inductive ReadingEscapes (reader : Yaml.Reader) (file : String) (h : Host) : Fault → Prop
  | unread {fault : Fault} (escapes : Config.Escapes reader Runner.processes file h fault) :
      ReadingEscapes reader file h fault
  | refused {cause : Failure} {h₁ : Host}
      (refuses : outcome (Config.ofFile reader Runner.processes file false false) h =
        (.error (.failure cause), h₁))
      (unprintable : cause.isPrintable = false) : ReadingEscapes reader file h .invalidValue

theorem raises_loadReported_iff :
    Raises (loadReported reader file) h fault ↔ ReadingEscapes reader file h fault := by
  constructor
  · rintro ⟨h', hraised⟩
    rw [outcome_loadReported] at hraised
    rcases hload : outcome (Config.ofFile reader Runner.processes file false false) h with ⟨raised | c, h₁⟩ <;>
      rw [hload] at hraised
    · cases raised with
      | failure cause =>
        dsimp only at hraised
        split at hraised
        · exact nomatch hraised
        · rename_i hno
          cases hraised
          exact .refused hload (Bool.eq_false_iff.mpr hno)
      | os | ended | notText | invalidValue =>
        cases hraised
        exact .unread (Config.letsOut_ofFile_iff.mp ⟨⟨_, hload⟩, fun _ => nofun⟩)
    · exact nomatch hraised
  · intro hescapes
    cases hescapes with
    | unread escapes =>
      obtain ⟨h', hload⟩ := (Config.letsOut_ofFile_iff.mpr escapes).1
      refine ⟨h', ?_⟩
      rw [outcome_loadReported, hload]
      cases fault with
      | failure cause =>
        exact absurd rfl (Command.ne_failure_of_escapes Runner.isOutside_processes escapes cause)
      | os | ended | notText | invalidValue => rfl
    | @refused cause h₁ refuses unprintable =>
      refine ⟨h₁, ?_⟩
      rw [outcome_loadReported, refuses]
      exact if_neg (Bool.eq_false_iff.mp unprintable)

/-- The tools of a configuration. -/
def checkTools (c : Configuration LooseText) : Action Bool := do
  let isDriverUsable ← checkDriver c.driver
  let isOptimizerUsable ← checkTool "optimizer" c.optimizer 1
  return isDriverUsable && isOptimizerUsable

/-- A configuration that has been read. -/
def checkLoaded (file : String) (c : Configuration LooseText) : Action Bool := do
  match Decimal.integerText? c.seed with
  | some seed => Action.printLine ("The configuration file " ++ file ++ " has seed " ++ seed ++ ".")
  | none => throw .invalidValue
  let arguments ← printable (LooseText.intercalate " " c.optimizerArguments)
  Action.printLine ("opt is run with: " ++ arguments ++ "\n")
  checkTools c

/-- What the report found in the file, checked. -/
def checkFound (file : String) : Option (Configuration LooseText) → Action Bool
  | none => pure false
  | some c => checkLoaded file c

theorem checkConfig_eq (reader : Yaml.Reader) (file : String) :
    checkConfig reader file = loadReported reader file >>= checkFound file := by
  unfold checkConfig
  refine congrArg (loadReported reader file >>= ·) (funext fun found => ?_)
  cases found with
  | none => rfl
  | some c =>
    dsimp only [checkFound, checkLoaded]
    generalize Decimal.integerText? c.seed = seed
    cases seed <;> rfl

/-- Why the check of the tools of a configuration ends without a verdict. -/
inductive ToolsEscape (c : Configuration LooseText) (h : Host) : Fault → Prop
  | driver {fault : Fault} (escapes : DriverEscapes h c.driver fault) : ToolsEscape c h fault
  | optimizer {isUsable : Bool} {h₁ : Host} {fault : Fault}
      (checks : outcome (checkDriver c.driver) h = (.ok isUsable, h₁))
      (escapes : ToolEscapes c.optimizer h₁ fault) : ToolsEscape c h fault

theorem raises_checkTools_iff : Raises (checkTools c) h fault ↔ ToolsEscape c h fault := by
  rw [checkTools, raises_bind_iff, raises_checkDriver_iff]
  simp only [AlwaysAnswers.raises_bind_iff_left fun _ => .pure _, raises_checkTool_iff]
  constructor
  · rintro (hdriver | ⟨isUsable, h₁, hchecks, hoptimizer⟩)
    · exact .driver hdriver
    · exact .optimizer hchecks hoptimizer
  · intro hescapes
    cases hescapes with
    | driver escapes => exact .inl escapes
    | optimizer checks escapes => exact .inr ⟨_, _, checks, escapes⟩

/-- The machine once the seed of a configuration has been printed. -/
def seedShown (file seed : String) (h : Host) : Host :=
  printed ("The configuration file " ++ file ++ " has seed " ++ seed ++ ".") h

/-- Why the check of a configuration ends without a verdict: its seed cannot be written or its arguments cannot
be printed, or its tools. -/
inductive LoadedEscapes (file : String) (c : Configuration LooseText) (h : Host) : Fault → Prop
  | seed (unwritable : Decimal.integerText? c.seed = none) : LoadedEscapes file c h .invalidValue
  | arguments {seed : String} (writable : Decimal.integerText? c.seed = some seed)
      (notPlain : (LooseText.intercalate " " c.optimizerArguments).plain? = none) :
      LoadedEscapes file c h .invalidValue
  | tools {seed arguments : String} {fault : Fault} (writable : Decimal.integerText? c.seed = some seed)
      (isPlain : (LooseText.intercalate " " c.optimizerArguments).plain? = some arguments)
      (escapes : ToolsEscape c (printed ("opt is run with: " ++ arguments ++ "\n") (seedShown file seed h)) fault) :
      LoadedEscapes file c h fault

theorem raises_checkLoaded_iff : Raises (checkLoaded file c) h fault ↔ LoadedEscapes file c h fault := by
  cases hseed : Decimal.integerText? c.seed with
  | none =>
    have hout : outcome (checkLoaded file c) h = (.error .invalidValue, h) := by
      unfold checkLoaded
      rw [hseed]
      rfl
    rw [raises_iff_of_error hout]
    constructor
    · rintro rfl
      exact .seed hseed
    · intro hescapes
      cases hescapes with
      | seed => rfl
      | arguments writable | tools writable => cases hseed.symm.trans writable
  | some seed =>
    cases hplain : (LooseText.intercalate " " c.optimizerArguments).plain? with
    | none =>
      have hout : outcome (checkLoaded file c) h = (.error .invalidValue, seedShown file seed h) := by
        unfold checkLoaded
        rw [hseed]
        simp only [outcome_bind, outcome_printLine, printable, hplain, outcome_throw, seedShown]
      rw [raises_iff_of_error hout]
      constructor
      · rintro rfl
        exact .arguments hseed hplain
      · intro hescapes
        cases hescapes with
        | seed | arguments => rfl
        | tools _ isPlain => cases hplain.symm.trans isPlain
    | some arguments =>
      have hout : outcome (checkLoaded file c) h = outcome (checkTools c)
          (printed ("opt is run with: " ++ arguments ++ "\n") (seedShown file seed h)) := by
        unfold checkLoaded
        rw [hseed]
        simp only [outcome_bind, outcome_printLine, printable, hplain, outcome_pure, seedShown]
      rw [Raises, hout]
      refine raises_checkTools_iff.trans ⟨.tools hseed hplain, fun hescapes => ?_⟩
      cases hescapes with
      | seed unwritable => cases hseed.symm.trans unwritable
      | arguments _ notPlain => cases hplain.symm.trans notPlain
      | tools writable isPlain escapes =>
        obtain rfl := Option.some.inj (hseed.symm.trans writable)
        obtain rfl := Option.some.inj (hplain.symm.trans isPlain)
        exact escapes

/-- Why the check of a configuration file ends without a verdict. -/
inductive FileEscapes (reader : Yaml.Reader) (file : String) (h : Host) : Fault → Prop
  | reading {fault : Fault} (escapes : ReadingEscapes reader file h fault) : FileEscapes reader file h fault
  | loaded {c : Configuration LooseText} {h₁ : Host} {fault : Fault}
      (loads : outcome (Config.ofFile reader Runner.processes file false false) h = (.ok c, h₁))
      (escapes : LoadedEscapes file c h₁ fault) : FileEscapes reader file h fault

theorem raises_checkConfig_iff :
    Raises (checkConfig reader file) h fault ↔ FileEscapes reader file h fault := by
  rw [checkConfig_eq, raises_bind_iff, raises_loadReported_iff]
  constructor
  · rintro (hescapes | ⟨found, h₁, hload, hrest⟩)
    · exact .reading hescapes
    · obtain rfl | ⟨c, rfl, hloads⟩ := cases_of_loadReported hload
      · exact absurd hrest (not_raises_of_ok rfl)
      · exact .loaded hloads (raises_checkLoaded_iff.mp hrest)
  · intro hescapes
    cases hescapes with
    | reading escapes => exact .inl escapes
    | @loaded c h₁ _ loads escapes =>
      have hload := outcome_loadReported reader file h
      rw [loads] at hload
      have hrest : Raises (checkLoaded file c) h₁ fault := raises_checkLoaded_iff.mpr escapes
      exact .inr ⟨some c, h₁, hload, hrest⟩

/-- Why the sanity check ends without an exit code. -/
inductive CheckEscapes (reader : Yaml.Reader) (platform : String) (named : Option String) (h : Host) :
    Fault → Prop
  | default {fault : Fault} (isSupported : isSupported platform = true)
      (unnamed : named.filter (· != "") = none)
      (escapes : DriverEscapes (introduced h) none fault) : CheckEscapes reader platform named h fault
  | config {file : String} {fault : Fault} (isSupported : isSupported platform = true)
      (isNamed : named.filter (· != "") = some file) (escapes : FileEscapes reader file (begun h) fault) :
      CheckEscapes reader platform named h fault

/-- Everything that goes wrong in the check comes from a program that is tried or from the file that is read. -/
theorem raises_checkWith_iff :
    Raises (checkWith reader platform named) h fault ↔ CheckEscapes reader platform named h fault := by
  rw [checkWith, alwaysAnswers_reportRelease.raises_bind_iff_right,
    alwaysAnswers_reportLogging.raises_bind_iff_right]
  change Raises _ (begun h) fault ↔ _
  cases hsupported : isSupported platform with
  | false =>
    simp only [Bool.not_false, ↓reduceIte]
    refine iff_of_false (not_raises_of_ok rfl) fun hescapes => ?_
    cases hescapes <;> exact absurd (hsupported.symm.trans ‹_›) (by decide)
  | true =>
    simp only [Bool.not_true, Bool.false_eq_true, ↓reduceIte]
    rcases hnamed : named.filter (· != "") with _ | file
    · have hdriver : Raises (checkDriver none) (introduced h) fault ↔
          DriverEscapes (introduced h) none fault := raises_checkDriver_iff
      dsimp only
      rw [raises_bind_of_ok (outcome_printLine _ _), AlwaysAnswers.raises_bind_iff_left fun _ => .pure _]
      refine hdriver.trans ⟨.default hsupported hnamed, fun hescapes => ?_⟩
      cases hescapes with
      | default _ _ escapes => exact escapes
      | config _ isNamed => cases hnamed.symm.trans isNamed
    · dsimp only
      rw [AlwaysAnswers.raises_bind_iff_left fun _ => .pure _, raises_checkConfig_iff]
      refine ⟨.config hsupported hnamed, fun hescapes => ?_⟩
      cases hescapes with
      | default _ unnamed => cases hnamed.symm.trans unnamed
      | config _ isNamed escapes =>
        obtain rfl := Option.some.inj (hnamed.symm.trans isNamed)
        exact escapes

/-- Without a configuration the check escapes only with the drivers that it looks for. -/
theorem checkEscapes_iff_of_unnamed (hsupported : isSupported platform = true)
    (hunnamed : named.filter (· != "") = none) :
    CheckEscapes reader platform named h fault ↔
      DriversEscape (unconfigured h).1 (unconfigured h).2 (introduced h) fault := by
  rw [← unconfigured_introduced]
  constructor
  · intro hescapes
    cases hescapes with
    | default _ _ escapes =>
      obtain ⟨escapes⟩ := escapes
      exact escapes
    | config _ isNamed => exact nomatch hunnamed.symm.trans isNamed
  · exact fun hescapes => .default hsupported hunnamed (.default hescapes)

end BitcodeWrapper.Sanity
