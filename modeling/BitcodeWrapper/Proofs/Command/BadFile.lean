import BitcodeWrapper.Proofs.Command.EarlyEnd
import BitcodeWrapper.Proofs.Config.Escape

/-! What a run makes of a file that is no configuration. One that is refused is answered with a record and
the exit code one. The fault of a file that is neither accepted nor refused ends the run. -/
namespace BitcodeWrapper.Command
open BitcodeWrapper.Action Config Pipeline

variable {reader : Yaml.Reader} {runner : Runner} {name file path : String} {given before after : Arguments}
  {isDryRun retainsWorkspace : Bool} {h h₁ : Host}

/-- Reading ends with a configuration or with an error in it, unless the file escapes: then it ends with a
fault of another kind. -/
structure EndsUnlessEscaping (reader : Yaml.Reader) (runner : Runner) (path : String)
    (isDryRun retainsWorkspace : Bool) (h : Host) : Prop where
  ends_iff : ((∃ c h', outcome (ofFile reader runner path isDryRun retainsWorkspace) h = (.ok c, h')) ∨
    ∃ cause h', outcome (ofFile reader runner path isDryRun retainsWorkspace) h =
      (.error (misconfigured cause), h')) ↔ ∀ fault, ¬ Escapes reader runner path h fault
  escaped : ∀ fault, Escapes reader runner path h fault →
    (∃ h', outcome (ofFile reader runner path isDryRun retainsWorkspace) h = (.error fault, h')) ∧
      ∀ cause, fault ≠ misconfigured cause

/-- A run that names this file. A file that is refused is answered with the exit code one and a record of the
error; one that escapes ends the run with its fault. -/
structure AnswersUnlessEscaping (runner : Runner) (file : String) (isDryRun retainsWorkspace : Bool) (h : Host)
    (out : Except Fault Int × Host) : Prop where
  refused : ∀ cause h', outcome (ofFile Config.reader runner file isDryRun retainsWorkspace) h =
      (.error (misconfigured cause), h') →
    out = (.ok 1, h'.accept (h'.ownRecord .error ("failed to extract config from args: " ++ cause.message)))
  escaped : ∀ fault, Escapes Config.reader runner file h fault → ∃ h',
    outcome (ofFile Config.reader runner file isDryRun retainsWorkspace) h = (.error fault, h') ∧
      out = (.error fault, h')

theorem endsUnlessEscaping_ofFile (reader : Yaml.Reader) (runner : Runner) (path : String)
    (isDryRun retainsWorkspace : Bool) (h : Host) :
    EndsUnlessEscaping reader runner path isDryRun retainsWorkspace h where
  ends_iff := by
    constructor
    · rintro (⟨c, h', hout⟩ | ⟨cause, h', hout⟩) fault hescapes
      · exact not_letsOut_of_ok hout (letsOut_ofFile_iff.mpr hescapes)
      · exact not_letsOut_of_refused hout (letsOut_ofFile_iff.mpr hescapes)
    · intro hnone
      have honly : RefusesOnly (ofFile reader runner path isDryRun retainsWorkspace) h :=
        refusesOnly_iff.mpr fun fault hlets => hnone fault (letsOut_ofFile_iff.mp hlets)
      rcases hout : outcome (ofFile reader runner path isDryRun retainsWorkspace) h with ⟨fault | c, h'⟩
      · obtain ⟨cause, rfl⟩ := honly fault h' hout
        exact .inr ⟨cause, h', rfl⟩
      · exact .inl ⟨c, h', rfl⟩
  escaped _ := letsOut_ofFile_iff.mpr

/-- What a runner from outside raises is no failure of the wrapper. -/
theorem ne_failure_of_toolEscapes {s : Settings} {fault : Fault} (hrunner : runner.IsOutside)
    (h : ToolEscapes runner s name h₁ fault) : ∀ cause, fault ≠ .failure cause := by
  cases h with
  | path => exact fun _ => nofun
  | query named asked escapes =>
    cases escapes with
    | unpassable => exact fun _ => nofun
    | raised isText raises notRefused =>
      rintro cause rfl
      obtain ⟨h', hout⟩ := raises.1
      exact hrunner.raises _ _ _ cause (congrArg Prod.fst hout)

theorem ne_failure_of_escapes {fault : Fault} (hrunner : runner.IsOutside)
    (hescapes : Escapes reader runner path h fault) : ∀ cause, fault ≠ .failure cause := by
  cases hescapes with
  | path | notText | unread => exact fun _ => nofun
  | settings isText spells isSeed escapes =>
    cases escapes with
    | driver escapes => exact ne_failure_of_toolEscapes hrunner escapes
    | optimizer accepted escapes => exact ne_failure_of_toolEscapes hrunner escapes
    | arguments | environment => exact fun _ => nofun

/-- A file that is named on the command line is read before anything else is done with it. -/
theorem answersUnlessEscaping_run (hrunner : runner.IsOutside) (hversion : versionFlag ∉ given)
    (henter : outcome (enter given) h = (.ok (), h₁))
    (hfile : unswitched given = before ++ fileFlag :: file :: after) (first : fileFlag ∉ before)
    (hnamed : file ≠ "") : AnswersUnlessEscaping runner file (dryRunFlag ∈ given) (retainFlag ∈ given)
      (h₁.accept (h₁.ownRecord .debug startText)) (outcome (run runner name given) h) := by
  have hruns : RunsWith runner name file given (before ++ after) _ _ :=
    runsWith_of_named hversion henter hfile first hnamed
  refine ⟨fun cause h' hfound => hruns.refused _ h' (outcome_load_eq_error_iff.mpr hfound), ?_⟩
  intro fault hescapes
  obtain ⟨⟨h', hfound⟩, -⟩ := letsOut_ofFile_iff.mpr hescapes
  refine ⟨h', hfound, (hruns.refused fault h' (outcome_load_eq_error_iff.mpr hfound)).trans ?_⟩
  cases fault with
  | failure cause => exact absurd rfl (ne_failure_of_escapes hrunner hescapes cause)
  | os | ended | notText | invalidValue => rfl

/-- Whatever reads it, a file is accepted or refused unless it escapes, and a run answers it unless it
escapes. -/
theorem bad_file_answered_unless_escaping (runner : Runner) :
    (∀ reader path isDryRun retainsWorkspace h,
      EndsUnlessEscaping reader runner path isDryRun retainsWorkspace h) ∧
      (runner.IsOutside → ∀ name given before file after h h₁, versionFlag ∉ given →
        outcome (enter given) h = (.ok (), h₁) → unswitched given = before ++ fileFlag :: file :: after →
        fileFlag ∉ before → file ≠ "" →
          AnswersUnlessEscaping runner file (dryRunFlag ∈ given) (retainFlag ∈ given)
            (h₁.accept (h₁.ownRecord .debug startText)) (outcome (run runner name given) h)) :=
  ⟨fun reader => endsUnlessEscaping_ofFile reader runner,
    fun hrunner _ _ _ _ _ _ _ hversion henter hfile first hnamed =>
      answersUnlessEscaping_run hrunner hversion henter hfile first hnamed⟩

theorem ofFile_of_blank (hfile : h.files.get? ["c"] = some (.file [] false)) :
    outcome (ofFile reader runner "/c" isDryRun retainsWorkspace) h = (.error (misconfigured .blank), h) := by
  have htext : outcome (fileText "/c") h = (.ok "", h) :=
    outcome_fileText_eq_ok_iff.mpr ⟨rfl, by decide +kernel, [], "", read_configFile hfile, rfl, rfl⟩
  have hsettings : outcome (settings reader "") h = (.error (misconfigured .blank), h) := rfl
  simp only [ofFile, outcome_bind, htext, hsettings]

/-- A run on an empty file, which is refused. -/
theorem blank_file_answered :
    answering.IsOutside ∧ versionFlag ∉ [fileFlag, "/c"] ∧
      outcome (enter [fileFlag, "/c"]) (holding []) =
        (.ok (), { holding [] with logging := .configured .warning none }) ∧
      unswitched [fileFlag, "/c"] = [] ++ fileFlag :: "/c" :: [] ∧
      (outcome (run answering "conjunct" [fileFlag, "/c"]) (holding [])).1 = .ok 1 := by
  have houtside : answering.IsOutside := isOutside_answering
  have hversion : versionFlag ∉ [fileFlag, "/c"] := by decide
  have henter : outcome (enter [fileFlag, "/c"]) (holding []) =
      (.ok (), { holding [] with logging := .configured .warning none }) :=
    outcome_enter_of_unrequested (by decide) rfl
  have hanswers := (bad_file_answered_unless_escaping answering).2 houtside "conjunct" [fileFlag, "/c"] [] "/c"
    [] _ _ hversion henter rfl List.not_mem_nil (by decide)
  rw [Host.accept_debug _ rfl] at hanswers
  have hout := hanswers.refused .blank _ (ofFile_of_blank rfl)
  exact ⟨houtside, hversion, henter, rfl, congrArg Prod.fst hout⟩

/-- A single byte that is no text gets past the run. -/
theorem undecodable_file_escapes :
    Files.hasNul "/c" = false ∧
      (outcome (ofFile Config.reader answering "/c" false false) (holding [0xff])).1 = .error .notText ∧
      (outcome (run answering "conjunct" [fileFlag, "/c"]) (holding [0xff])).1 = .error .notText := by
  have hnul : Files.hasNul "/c" = false := by decide +kernel
  have hescapes : ∀ k : Host, k.files.get? ["c"] = some (.file [0xff] false) →
      Escapes Config.reader answering "/c" k .notText :=
    fun k hfile => .notText hnul (read_configFile hfile) rfl
  have henter : outcome (enter [fileFlag, "/c"]) (holding [0xff]) =
      (.ok (), { holding [0xff] with logging := .configured .warning none }) :=
    outcome_enter_of_unrequested (by decide) rfl
  have hlets : LetsOut (ofFile Config.reader answering "/c" false false) (holding [0xff]) .notText :=
    letsOut_ofFile_iff.mpr (hescapes (holding [0xff]) rfl)
  obtain ⟨⟨k, hfound⟩, -⟩ := hlets
  have hanswers := @answersUnlessEscaping_run answering "conjunct" "/c" [fileFlag, "/c"] [] [] _ _
    isOutside_answering (by decide) henter rfl List.not_mem_nil (by decide)
  rw [Host.accept_debug _ rfl] at hanswers
  obtain ⟨k', -, hout⟩ := hanswers.escaped .notText (hescapes _ rfl)
  exact ⟨hnul, congrArg Prod.fst hfound, congrArg Prod.fst hout⟩

end BitcodeWrapper.Command
