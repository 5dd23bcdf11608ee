import BitcodeWrapper.Proofs.Config.Accept

/-! What is done on a machine while a configuration is read. Records are written, and the tools that the file
names are asked for their versions, the driver first and each of them once. -/
namespace BitcodeWrapper.Config
open BitcodeWrapper.Action

variable {α β : Type} {runner : Runner} {Named Named' : String → Host → String → Prop}
  {names names' : List String} {s : Settings} {name path : String} {h h' h'' : Host}

/-- On the way from one machine to another the tools of these names are asked for their versions, in this
order and where the names lead to at that time. Apart from that only records are written. -/
inductive Probes (runner : Runner) (Named : String → Host → String → Prop) (h : Host) :
    List String → Host → Prop
  | refl : Probes runner Named h [] h
  | accept {names : List String} {h' : Host} (earlier : Probes runner Named h names h')
      (r : Log.Record) : Probes runner Named h names (h'.accept r)
  | query {names : List String} {h' : Host} {name path : String}
      (earlier : Probes runner Named h names h') (named : Named name h' path) :
      Probes runner Named h (names ++ [name]) (outcome (runner [path, Probe.versionSwitch] none) h').2

namespace Probes

theorem trans (hp : Probes runner Named h names h') (hp' : Probes runner Named h' names' h'') :
    Probes runner Named h (names ++ names') h'' := by
  induction hp' with
  | refl => rwa [List.append_nil]
  | accept earlier r ih => exact ih.accept r
  | query earlier named ih =>
    rw [← List.append_assoc]
    exact ih.query named

theorem of_recordsTo (hr : Host.RecordsTo h h') : Probes runner Named h [] h' := by
  induction hr with
  | refl => exact .refl
  | accept earlier r ih => exact ih.accept r

theorem records (hp : Probes runner Named h names h') (hr : Host.RecordsTo h' h'') :
    Probes runner Named h names h'' := by
  have hboth := hp.trans (of_recordsTo hr)
  rwa [List.append_nil] at hboth

theorem mono (hp : Probes runner Named h names h')
    (hnamed : ∀ name k path, Named name k path → Named' name k path) :
    Probes runner Named' h names h' := by
  induction hp with
  | refl => exact .refl
  | accept earlier r ih => exact ih.accept r
  | query earlier named ih => exact ih.query (hnamed _ _ _ named)

/-- What neither records nor queries change is as it was. -/
theorem keeps {f : Host → β} (hp : Probes runner Named h names h')
    (haccept : ∀ k r, f (k.accept r) = f k)
    (hquery : ∀ path k, f (outcome (runner [path, Probe.versionSwitch] none) k).2 = f k) :
    f h' = f h := by
  induction hp with
  | refl => rfl
  | accept earlier r ih => exact (haccept _ r).trans ih
  | query earlier named ih => exact (hquery _ _).trans ih

end Probes

/-- The machine is left as it is. -/
def Stays (x : Action α) : Prop := ∀ h, (outcome x h).2 = h

theorem Stays.bind {x : Action α} {f : α → Action β} (hx : Stays x) (hf : ∀ a, Stays (f a)) :
    Stays (x >>= f) :=
  @Keeps.bind _ _ _ id _ _ hx hf

theorem stays_pure (a : α) : Stays (pure a) := fun _ => rfl

theorem stays_refuse (cause : ConfigurationError) : Stays (refuse cause : Action α) := fun _ => rfl

theorem stays_mapM {f : α → Action β} (hf : ∀ a, Stays (f a)) (as : List α) : Stays (as.mapM f) := by
  induction as with
  | nil =>
    rw [List.mapM_nil]
    exact stays_pure _
  | cons a as ih =>
    rw [List.mapM_cons]
    exact (hf a).bind fun _ => ih.bind fun _ => stays_pure _

theorem stays_textOf (v : Yaml.Value) : Stays (s.textOf v) := by
  intro h
  rw [Settings.textOf]
  split <;> rfl

theorem stays_fileText (path : String) : Stays (fileText path) := by
  intro h
  rw [fileText]
  cases Files.hasNul path with
  | true => rfl
  | false =>
    simp only [Bool.false_eq_true, ↓reduceIte, outcome_bind, outcome_get]
    split
    · rfl
    · split <;> rfl

theorem stays_settings (reader : Yaml.Reader) (text : String) : Stays (settings reader text) := by
  intro h
  rw [settings]
  cases Text.isAllBlank text with
  | true => rfl
  | false =>
    simp only [Bool.false_eq_true, ↓reduceIte]
    split
    · rfl
    · rfl
    · split <;> rfl

theorem stays_seedOf : Stays (seedOf s) := by
  intro h
  rw [seedOf]
  split
  · split <;> rfl
  · rfl

theorem stays_listOf (name : String) : Stays (listOf s name) := by
  rw [listOf]
  split
  · exact stays_pure _
  · exact stays_mapM stays_textOf _
  · exact stays_refuse _

theorem stays_mappingOf (name : String) : Stays (mappingOf s name) := by
  rw [mappingOf]
  split
  · exact stays_pure _
  · refine (stays_mapM (fun entry => ?_) _).bind fun _ => stays_pure _
    refine (stays_textOf _).bind fun key => Stays.bind ?_ fun value => stays_pure _
    rw [valueText.eq_def]
    split
    · exact stays_pure _
    · exact stays_textOf _
  · exact stays_refuse _

theorem stays_optimizerArgumentsOf : Stays (optimizerArgumentsOf s) :=
  (stays_listOf _).bind fun _ => (stays_listOf _).bind fun _ => (stays_mappingOf _).bind fun _ => stays_pure _

theorem stays_toolText (name : String) : Stays (toolText? s name) := by
  rw [toolText?]
  split
  · exact stays_pure _
  · exact (stays_textOf _).bind fun _ => stays_pure _

theorem stays_expandTool (name : String) (text : LooseText) : Stays (expandTool name text) := by
  intro h
  simp only [expandTool, outcome_bind, outcome_get]
  rcases h.expandLoose text with fault | whole
  · cases fault <;> rfl
  · rfl

/-- Of these tools some are asked, in their order, and else only records are written. -/
def AsksOnly (runner : Runner) (Named : String → Host → String → Prop) (tools : List String)
    (x : Action α) (h : Host) : Prop :=
  ∃ names, names.Sublist tools ∧ Probes runner Named h names (outcome x h).2

theorem AsksOnly.mono {tools : List String} {x : Action α} (hx : AsksOnly runner Named tools x h)
    (hnamed : ∀ name k path, Named name k path → Named' name k path) :
    AsksOnly runner Named' tools x h := by
  obtain ⟨names, hsub, hprobes⟩ := hx
  exact ⟨names, hsub, hprobes.mono hnamed⟩

theorem AsksOnly.bind {tools tools' : List String} {x : Action α} {f : α → Action β}
    (hx : AsksOnly runner Named tools x h)
    (hf : ∀ a h', outcome x h = (.ok a, h') → AsksOnly runner Named tools' (f a) h') :
    AsksOnly runner Named (tools ++ tools') (x >>= f) h := by
  obtain ⟨names, hsub, hprobes⟩ := hx
  rcases hout : outcome x h with ⟨fault | a, h₁⟩ <;> rw [hout] at hprobes
  · refine ⟨names, hsub.trans (List.sublist_append_left _ _), ?_⟩
    rwa [outcome_bind, hout]
  · obtain ⟨names', hsub', hprobes'⟩ := hf a h₁ hout
    refine ⟨names ++ names', hsub.append hsub', ?_⟩
    rw [outcome_bind, hout]
    exact hprobes.trans hprobes'

theorem AsksOnly.of_stays {tools : List String} {x : Action α} (hx : Stays x) :
    AsksOnly runner Named tools x h := by
  refine ⟨[], List.nil_sublist _, ?_⟩
  rw [hx h]
  exact .refl

/-- What comes before without a trace does not count. -/
theorem AsksOnly.after {tools : List String} {x : Action α} {f : α → Action β} (hx : Stays x)
    (hf : ∀ a, outcome x h = (.ok a, h) → AsksOnly runner Named tools (f a) h) :
    AsksOnly runner Named tools (x >>= f) h := by
  have hnone : AsksOnly runner Named [] x h := .of_stays hx
  refine hnone.bind fun a h' hout => ?_
  obtain rfl : h' = h := (congrArg Prod.snd hout).symm.trans (hx h)
  exact hf a hout

theorem asksOnly_debug (message : String) : AsksOnly runner Named [] (debug message) h :=
  ⟨[], .slnil, .accept .refl _⟩

/-- A tool is asked if the system can read its path. -/
theorem asksOnly_versionText (tool : Probe.Tool) {path : LooseText}
    (named : ∀ received, path.received? = some received → Named name h received) :
    AsksOnly runner Named [name] (Probe.versionText runner tool path) h := by
  have hask : AsksOnly runner Named [name] (Probe.ask runner path) h := by
    cases hreceived : path.received? with
    | none =>
      obtain ⟨fault, k, hout, hrecords, -⟩ := @Probe.outcome_ask_of_not_received runner path h hreceived
      refine ⟨[], List.nil_sublist _, ?_⟩
      rw [hout]
      exact .of_recordsTo hrecords
    | some received =>
      refine ⟨[name], .refl _, ?_⟩
      have hsame : (outcome (Probe.ask runner path) h).2 =
          (outcome (runner [received, Probe.versionSwitch] none) h).2 := by
        rw [Probe.outcome_ask_of_received hreceived]
        rcases outcome (runner [received, Probe.versionSwitch] none) h with ⟨fault | reply, h₁⟩
        · cases fault <;> rfl
        · rfl
      rw [hsame]
      exact .query .refl (named received hreceived)
  refine hask.bind fun reply h₁ _ => .of_stays ?_
  dsimp only
  split
  · exact stays_refuse _
  · split
    · exact stays_refuse _
    · exact stays_pure _

theorem stays_toolPath (s : Settings) (name : String) : Stays (toolPath? s name) := by
  refine (stays_toolText name).bind fun found => ?_
  cases found with
  | none => exact stays_pure none
  | some text => exact (stays_expandTool name text).bind fun path => stays_pure _

/-- A setting leads to a path that the system reads so. -/
def Settings.LeadsTo (s : Settings) (name : String) (h : Host) (received : String) : Prop :=
  ∃ path, s.Names name h path ∧ path.received? = some received

theorem asksOnly_driverOf (runner : Runner) (s : Settings) (h : Host) :
    AsksOnly runner s.LeadsTo ["clang"] (driverOf runner s) h := by
  refine .after (stays_toolPath s "clang") fun found hpath => ?_
  obtain ⟨-, ⟨-, rfl⟩ | ⟨path, hnamed, rfl⟩⟩ := outcome_toolPath_eq_ok_iff.mp hpath
  · exact .of_stays (stays_pure none)
  · refine .after (fun _ => rfl) fun k _ => ?_
    dsimp only
    split
    · exact ⟨[], List.nil_sublist _, .accept .refl _⟩
    · have hleads : ∀ received, path.received? = some received → s.LeadsTo "clang" h received :=
        fun _ hreceived => ⟨path, hnamed, hreceived⟩
      exact (asksOnly_versionText _ hleads).bind fun _ _ _ => .of_stays (stays_pure _)

theorem asksOnly_optimizerOf (runner : Runner) (s : Settings) (h : Host) :
    AsksOnly runner s.LeadsTo ["opt"] (optimizerOf runner s) h := by
  refine .after (stays_toolPath s "opt") fun found hpath => ?_
  obtain ⟨-, ⟨-, rfl⟩ | ⟨path, hnamed, rfl⟩⟩ := outcome_toolPath_eq_ok_iff.mp hpath
  · exact .of_stays (stays_refuse _)
  · have hleads : ∀ received, path.received? = some received → s.LeadsTo "opt" h received :=
      fun _ hreceived => ⟨path, hnamed, hreceived⟩
    exact (asksOnly_versionText _ hleads).bind fun _ _ _ => .of_stays (stays_pure _)

theorem asksOnly_record (c : Configuration LooseText) : AsksOnly runner Named [] (record c) h := by
  rw [record]
  split
  · exact asksOnly_debug _
  · exact .of_stays (stays_pure _)

/-- A path that a setting of the file leads to. -/
def FileNames (reader : Yaml.Reader) (h₀ : Host) (file name : String) (h : Host) (path : String) : Prop :=
  ∃ text s, IsText h₀ file text ∧ Spells reader text s ∧ s.LeadsTo name h path

/-- However the reading of a file ends, at most its driver and its optimizer are asked. -/
theorem asksOnly_ofFile (reader : Yaml.Reader) (runner : Runner) (file : String)
    (isDryRun retainsWorkspace : Bool) (h : Host) :
    AsksOnly runner (FileNames reader h file) ["clang", "opt"]
      (ofFile reader runner file isDryRun retainsWorkspace) h := by
  refine .after (stays_fileText file) fun text hfile => ?_
  obtain ⟨-, htext⟩ := outcome_fileText_eq_ok_iff.mp hfile
  refine .after (stays_settings reader text) fun s hsettings => ?_
  obtain ⟨-, hspells⟩ := outcome_settings_eq_ok_iff.mp hsettings
  have hnames : ∀ name k path, s.LeadsTo name k path → FileNames reader h file name k path :=
    fun _ _ _ hnamed => ⟨text, s, htext, hspells, hnamed⟩
  refine .after stays_seedOf fun seed _ => ?_
  refine ((asksOnly_driverOf runner s h).mono hnames).bind fun driver h₁ _ => ?_
  refine ((asksOnly_optimizerOf runner s h₁).mono hnames).bind fun optimizer h₂ _ => ?_
  refine .after stays_optimizerArgumentsOf fun arguments _ => ?_
  refine .after (stays_mappingOf _) fun environment _ => ?_
  exact (asksOnly_record _).bind fun _ _ _ => .of_stays (stays_pure _)

theorem asksOnly_load (runner : Runner) (file : String) (isDryRun retainsWorkspace : Bool) (h : Host) :
    AsksOnly runner (FileNames Config.reader h file) ["clang", "opt"]
      (load runner file isDryRun retainsWorkspace) h :=
  (asksOnly_ofFile Config.reader runner file isDryRun retainsWorkspace h).bind fun _ _ _ =>
    .of_stays (stays_pure _)

end BitcodeWrapper.Config
