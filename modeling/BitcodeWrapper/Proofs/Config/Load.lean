import BitcodeWrapper.Config.File
import BitcodeWrapper.Proofs.Config.Answer
import BitcodeWrapper.Proofs.Host.Loose

/-! Configurations that load: the two switches are those of the command line, and a file that gives a seed
and an optimizer gives enough. -/
namespace BitcodeWrapper.Config
open BitcodeWrapper.Action

variable {reader : Yaml.Reader} {runner : Runner} {path text version : String} {whole : LooseText}
  {isDryRun retainsWorkspace : Bool} {h h' : Host}

/-- A configuration is run with as it was read, but for the texts that commands are given. -/
theorem outcome_load_eq_ok_iff {c : Config} :
    outcome (load runner path isDryRun retainsWorkspace) h = (.ok c, h') ↔
      ∃ found, outcome (ofFile Config.reader runner path isDryRun retainsWorkspace) h = (.ok found, h') ∧
        c = found.handed := by
  simp only [load, outcome_bind_eq_ok_iff, outcome_pure]
  constructor
  · rintro ⟨found, _, hfound, ⟨⟩⟩
    exact ⟨found, hfound, rfl⟩
  · rintro ⟨found, hfound, rfl⟩
    exact ⟨found, h', hfound, rfl⟩

theorem outcome_load_eq_error_iff {fault : Fault} :
    outcome (load runner path isDryRun retainsWorkspace) h = (.error fault, h') ↔
      outcome (ofFile Config.reader runner path isDryRun retainsWorkspace) h = (.error fault, h') := by
  simp only [load, outcome_bind]
  rcases outcome (ofFile Config.reader runner path isDryRun retainsWorkspace) h with ⟨raised | found, h₁⟩
  · constructor <;> rintro ⟨⟩ <;> rfl
  · exact iff_of_false nofun nofun

/-- The file has no say in the two switches. -/
theorem switches_of_load {c : Config}
    (hload : outcome (load runner path isDryRun retainsWorkspace) h = (.ok c, h')) :
    c.isDryRun = isDryRun ∧ c.retainsWorkspace = retainsWorkspace := by
  obtain ⟨found, hfound, rfl⟩ := outcome_load_eq_ok_iff.mp hload
  simp only [ofFile, outcome_bind_eq_ok_iff, outcome_pure] at hfound
  obtain ⟨_, _, -, _, _, -, seed, _, -, driver, _, -, optimizer, _, -, arguments, _, -, environment, _,
    -, _, _, -, hend⟩ := hfound
  cases hend
  exact ⟨rfl, rfl⟩

/-- A seed and an optimizer are given, and nothing else. -/
structure Settings.IsMinimal (s : Settings) (seed : Int) (optimizer : LooseText) : Prop where
  seed : s.get "seed" = .int seed
  optimizer : s.get "opt" = .text optimizer
  others : ∀ name ∈ ["clang", "passes", "opt-args", "opt-extra-args", "opt-env"], s.get name = .null

namespace Settings.IsMinimal
variable {s : Settings} {seed : Int} {optimizer : LooseText}

theorem seedOf (hs : s.IsMinimal seed optimizer) (hseed : seed ≠ 0) :
    Config.seedOf s = pure seed := by
  simp only [Config.seedOf, hs.seed, if_neg hseed]

theorem driverOf (hs : s.IsMinimal seed optimizer) : Config.driverOf runner s = pure none := by
  simp only [Config.driverOf, toolPath?, toolText?, hs.others "clang" (by decide), Yaml.Document.isNothing]
  rfl

theorem optimizerOf (hs : s.IsMinimal seed optimizer) (hoptimizer : optimizer.points.isEmpty = false)
    (hexpand : outcome (expandTool "opt" optimizer) h = (.ok whole, h))
    (hprobe : outcome (Probe.versionText runner Probe.optimizer whole) h = (.ok version, h')) :
    outcome (Config.optimizerOf runner s) h = (.ok whole, h') := by
  have htext : outcome (toolText? s "opt") h = (.ok (some optimizer), h) := by
    simp only [toolText?, hs.optimizer, Yaml.Document.isNothing, hoptimizer, textOf, Yaml.Document.text?]
    rfl
  simp only [Config.optimizerOf, toolPath?, outcome_bind, htext, hexpand, hprobe, outcome_pure]

theorem optimizerArgumentsOf (hs : s.IsMinimal seed optimizer) :
    Config.optimizerArgumentsOf s = pure [] := by
  simp only [Config.optimizerArgumentsOf, listOf, mappingOf, hs.others "passes" (by decide),
    hs.others "opt-args" (by decide), hs.others "opt-extra-args" (by decide)]
  rfl

theorem environmentOf (hs : s.IsMinimal seed optimizer) : mappingOf s "opt-env" = pure [] := by
  simp only [mappingOf, hs.others "opt-env" (by decide)]

/-- What is left out is empty, and the driver is left to be searched for. -/
theorem ofFile (hs : s.IsMinimal seed optimizer) (hseed : seed ≠ 0)
    (hoptimizer : optimizer.points.isEmpty = false) {h₁ h₂ : Host}
    (hsettings : outcome (fileText path >>= settings reader) h = (.ok s, h))
    (hexpand : outcome (expandTool "opt" optimizer) h = (.ok whole, h))
    (hprobe : outcome (Probe.versionText runner Probe.optimizer whole) h = (.ok version, h₁))
    (hrecord : outcome (record ⟨seed, none, whole, [], [], retainsWorkspace, isDryRun⟩) h₁ =
      (.ok (), h₂)) :
    outcome (Config.ofFile reader runner path isDryRun retainsWorkspace) h =
      (.ok ⟨seed, none, whole, [], [], retainsWorkspace, isDryRun⟩, h₂) := by
  rw [Config.ofFile, ← bind_assoc, outcome_bind, hsettings]
  simp only [outcome_bind, hs.seedOf hseed, hs.driverOf, hs.optimizerOf hoptimizer hexpand hprobe,
    hs.optimizerArgumentsOf, hs.environmentOf, outcome_pure, hrecord]

end Settings.IsMinimal

/-- The seed and the optimizer of settings that are minimal. -/
def Settings.minimal? (s : Settings) : Option (Int × LooseText) :=
  match s.get "seed", s.get "opt" with
  | .int seed, .text optimizer =>
    if ["clang", "passes", "opt-args", "opt-extra-args", "opt-env"].all fun name =>
        match s.get name with
        | .null => true
        | _ => false
    then some (seed, optimizer)
    else none
  | _, _ => none

theorem Settings.isMinimal_of_minimal? {s : Settings} {seed : Int} {optimizer : LooseText}
    (hs : s.minimal? = some (seed, optimizer)) : s.IsMinimal seed optimizer := by
  unfold minimal? at hs
  split at hs
  · rename_i hseed hoptimizer
    split at hs
    · rename_i hothers
      cases hs
      refine ⟨hseed, hoptimizer, fun name hname => ?_⟩
      have hnull := List.all_eq_true.mp hothers name hname
      split at hnull
      · assumption
      · exact nomatch hnull
    · exact nomatch hs
  · exact nomatch hs

/-- A file that is well formed gives its settings. -/
theorem outcome_settings_of_read {bytes : Bytes} {d : Yaml.Document} {s : Settings}
    (hnul : Files.hasNul path = false) (hbytes : h.files.read h.here path = .ok bytes)
    (hdecode : Text.Utf8.decode? bytes = some text)
    (hlines : String.ofList (Text.withNewlines text.toList) = text)
    (hblank : Text.isAllBlank text = false) (hread : reader.read text = .ok d)
    (hmapping : Settings.ofDocument? d = some s) :
    outcome (fileText path >>= settings reader) h = (.ok s, h) := by
  have htext : outcome (fileText path) h = (.ok text, h) := by
    simp only [fileText, hnul, Bool.false_eq_true, ↓reduceIte, outcome_bind, outcome_pure,
      outcome_get, hbytes, hdecode, hlines]
  simp only [outcome_bind, htext, settings, hblank, Bool.false_eq_true, ↓reduceIte, outcome_pure,
    hread, hmapping]

theorem outcome_expandTool_of_expandPath {name absolute : String}
    (hexpand : h.expandPath path false = .ok absolute) :
    outcome (expandTool name path) h = (.ok (absolute : LooseText), h) := by
  have hloose : h.expandLoose path = .ok (absolute : LooseText) :=
    Host.expandLoose_ofString_eq_ok_iff.mpr hexpand
  simp only [expandTool, outcome_bind, outcome_get, hloose, outcome_pure]

/-- The text of a minimal configuration. -/
def minimalText : String := "\"seed\": !!int \"1\"\n\"opt\": \"/opt\"\n"

/-- A machine with a minimal configuration, on which logging is not set up yet. -/
def configured : Host :=
  { Host.fresh ⟨[(["c"], .file (Text.Utf8.encode minimalText) false), (["opt"], .file [] true)]⟩ []
    with logging := .initial }

/-- A machine with these bytes for a configuration. -/
def holding (bytes : Bytes) : Host :=
  { Host.fresh ⟨[(["c"], .file bytes false)]⟩ [] with logging := .initial }

/-- Every command says that it is an optimizer. -/
def answering : Runner := fun _ _ => return ⟨0, Text.Utf8.encode "LLVM"⟩

/-- A text whose settings are found to be minimal is well formed. -/
theorem exists_isMinimal_of_minimal? {seed : Int} {optimizer : LooseText}
    (hminimal : ((Yaml.read text).toOption.bind Settings.ofDocument?).bind Settings.minimal? =
      some (seed, optimizer)) :
    ∃ d s, Yaml.read text = .ok d ∧ Settings.ofDocument? d = some s ∧ s.IsMinimal seed optimizer := by
  obtain ⟨s, hs, hminimal⟩ := Option.bind_eq_some_iff.mp hminimal
  obtain ⟨d, hd, hmapping⟩ := Option.bind_eq_some_iff.mp hs
  have hread : Yaml.read text = .ok d := by
    cases hr : Yaml.read text with
    | error e => rw [hr] at hd; exact nomatch hd
    | ok d' => rw [hr] at hd; exact congrArg _ (Option.some.inj hd)
  exact ⟨d, s, hread, hmapping, Settings.isMinimal_of_minimal? hminimal⟩

theorem read_minimalText : ∃ d s, Yaml.read minimalText = .ok d ∧
    Settings.ofDocument? d = some s ∧ s.IsMinimal 1 "/opt" :=
  exists_isMinimal_of_minimal? (by decide +kernel)

theorem decode_minimalText :
    Text.Utf8.decode? (Text.Utf8.encode minimalText) = some minimalText := by
  decide +kernel

theorem lines_minimalText : String.ofList (Text.withNewlines minimalText.toList) = minimalText := by
  decide +kernel

theorem read_configFile {bytes : Bytes} {isExecutable : Bool}
    (hfile : h.files.get? ["c"] = some (.file bytes isExecutable)) :
    h.files.read h.here "/c" = .ok bytes := by
  have hfind : h.files.find h.here true "/c" = .ok ⟨["c"], some (.file bytes isExecutable)⟩ :=
    Files.find_of_directories (by decide +kernel) (by decide) (by decide) (by decide)
      (by simp [Files.get?_root]) hfile
      nofun
  simp only [Files.read, Files.stat_of_find hfind]

theorem leadsToDirectory_root (h : Host) : h.LeadsToDirectory "/" := by
  have hnames : Path.names "/" = ["", ""] := by decide +kernel
  have hfind : h.files.find h.here true "/" = .ok ⟨[], some .directory⟩ := by
    refine Files.find_eq_ok_iff.mpr ⟨by decide, by decide, ?_⟩
    rw [hnames, if_pos (by decide), ← Files.get?_root h.files]
    exact .blank (.inl rfl) (.blank (.inl rfl) .arrive)
  exact ⟨by decide +kernel, [], hfind⟩

theorem expandPath_opt (h : Host) : h.expandPath "/opt" false = .ok "/opt" := by
  have hspells : Path.Spells "/opt" 1 ["opt".toList] :=
    ⟨.inl rfl, by decide, by simp [Path.isProper_iff, Path.slash]⟩
  have hwhole : h.wholeOf "/opt" = "/opt" := Host.wholeOf_of_spells hspells (by decide)
  have hparent : Path.directory "/opt" = "/" := by decide +kernel
  have hd : h.LeadsToDirectory (Path.directory (h.wholeOf "/opt")) := by
    rw [hwhole, hparent]
    exact leadsToDirectory_root h
  rw [Host.expandPath_of_leadsToDirectory (by decide +kernel) hd, hwhole]

/-- The minimal text loads wherever it is read, as long as debugging is off. -/
theorem ofFile_minimalText {isExecutable : Bool}
    (hfile : h.files.get? ["c"] = some (.file (Text.Utf8.encode minimalText) isExecutable))
    (hquiet : h.logging.threshold = .warning) (isDryRun retainsWorkspace : Bool) :
    outcome (ofFile Config.reader answering "/c" isDryRun retainsWorkspace) h =
      (.ok ⟨1, none, "/opt", [], [], retainsWorkspace, isDryRun⟩, h) := by
  obtain ⟨d, s, hread, hmapping, hminimal⟩ := read_minimalText
  have hsettings : outcome (fileText "/c" >>= settings Config.reader) h = (.ok s, h) :=
    outcome_settings_of_read (by decide +kernel) (read_configFile hfile) decode_minimalText
      lines_minimalText (by decide +kernel) hread hmapping
  have hprobe : outcome (Probe.versionText answering Probe.optimizer "/opt") h = (.ok "LLVM", h) := by
    have htext : Text.Utf8.decodeLossy (Text.Utf8.encode "LLVM") = "LLVM" := by decide +kernel
    have hask : outcome (Probe.ask answering "/opt") h = (.ok ⟨0, Text.Utf8.encode "LLVM"⟩, h) :=
      Probe.outcome_ask_eq_ok_iff.mpr ⟨"/opt", LooseText.received?_ofString _, rfl⟩
    simp only [Probe.versionText, outcome_bind, hask, htext]
    rfl
  have hrecord : outcome (record ⟨1, none, "/opt", [], [], retainsWorkspace, isDryRun⟩) h =
      (.ok (), h) := by
    rw [record]
    split
    · rw [outcome_debug, h.accept_debug hquiet]
    · rfl
  exact hminimal.ofFile (by decide) (by decide) hsettings
    (outcome_expandTool_of_expandPath (expandPath_opt h)) hprobe hrecord

theorem load_minimalText {isExecutable : Bool}
    (hfile : h.files.get? ["c"] = some (.file (Text.Utf8.encode minimalText) isExecutable))
    (hquiet : h.logging.threshold = .warning) (isDryRun retainsWorkspace : Bool) :
    outcome (load answering "/c" isDryRun retainsWorkspace) h =
      (.ok ⟨1, none, "/opt", [], [], retainsWorkspace, isDryRun⟩, h) := by
  refine outcome_load_eq_ok_iff.mpr ⟨_, ofFile_minimalText hfile hquiet isDryRun retainsWorkspace, ?_⟩
  simp only [Configuration.handed, LooseText.handed_ofString]
  rfl

end BitcodeWrapper.Config
