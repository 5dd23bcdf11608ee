import BitcodeWrapper.Command
import BitcodeWrapper.Proofs.Config.Extract
import BitcodeWrapper.Proofs.Pipeline.DryRun

/-! The command line of a whole run. What is neither a switch nor the file of a configuration is handed on
in its order, and it makes no difference where the switches stand. -/
namespace BitcodeWrapper.Command
open BitcodeWrapper.Action Arguments Config Pipeline

variable {runner : Runner} {name invokedAs : String} {given more args : Arguments}
  {h h₁ h' : Host}

/-- The flags of the wrapper that stand for themselves. -/
def switches : List String := [verboseFlag, dryRunFlag, retainFlag]

def unswitched (given : Arguments) : Arguments := given.filter (· ∉ switches)

/-- The same command line with switches put in anywhere. -/
inductive WithSwitches : Arguments → Arguments → Prop
  | nil : WithSwitches [] []
  | keep {given more : Arguments} (a : String) (rest : WithSwitches given more) :
      WithSwitches (a :: given) (a :: more)
  | put {given more : Arguments} {switch : String} (isSwitch : switch ∈ switches)
      (rest : WithSwitches given more) : WithSwitches given (switch :: more)

theorem WithSwitches.unswitched_eq (h : WithSwitches given more) :
    unswitched more = unswitched given := by
  induction h with
  | nil => rfl
  | keep a rest ih =>
    rw [unswitched, unswitched] at ih
    rw [unswitched, unswitched, List.filter_cons, List.filter_cons, ih]
  | put isSwitch rest ih => rwa [unswitched, List.filter_cons_of_neg (by simpa using isSwitch)]

/-- No other flag is put in. -/
theorem WithSwitches.mem_iff (h : WithSwitches given more) {a : String} (ha : a ∉ switches) :
    a ∈ more ↔ a ∈ given := by
  induction h with
  | nil => rfl
  | keep b rest ih => rw [List.mem_cons, List.mem_cons, ih]
  | put isSwitch rest ih =>
    rw [List.mem_cons, ih, or_iff_right]
    rintro rfl
    exact ha isSwitch

/-- The switches go in two steps, the first of them before anything is read. -/
theorem withoutSwitches_withoutEvery (given : Arguments) :
    withoutSwitches (given.withoutEvery verboseFlag false) = unswitched given := by
  rw [withoutSwitches_eq_filter, withoutEvery_eq_filter (by decide), List.filter_filter, unswitched]
  refine List.filter_congr fun a _ => ?_
  simp [switches, Bool.and_comm]

/-- The first step takes no flag but its own. -/
theorem has_withoutEvery {flag : String} (hflag : flag ≠ "") (hne : flag ≠ verboseFlag)
    (given : Arguments) :
    (given.withoutEvery verboseFlag false).has flag = decide (flag ∈ given) := by
  rw [has_eq_decide hflag, withoutEvery_eq_filter (by decide)]
  simp [hne]

/-- Logging is set up and the command line is recorded. -/
def enter (given : Arguments) : Action Unit := do
  LogSetup.configure (given.has verboseFlag)
  if given.has verboseFlag then debug "Running conjunct in verbose mode"
  log .info ("Entering CC [" ++ String.intercalate " " (given.withoutEvery verboseFlag false) ++ "]")

/-- Nothing is handed to the runner. -/
def KeepsLaunches {α : Type} (x : Action α) : Prop := ∀ h, (outcome x h).2.launches = h.launches

section setup
variable {β : Type} {look : Host → β} (hrecord : ∀ h r, look (h.accept r) = look h)
  (hfiles : ∀ h files, look { h with files := files } = look h)
  (hlogging : ∀ h logging, look { h with logging := logging } = look h)
include hrecord hfiles hlogging

omit hrecord hlogging in
theorem keeps_openCopy : Keeps look LogSetup.openCopy := by
  intro h
  simp only [LogSetup.openCopy, outcome_bind, outcome_get]
  split
  · rfl
  · split
    · rfl
    · exact hfiles h _

theorem keeps_configure (isVerbose : Bool) : Keeps look (LogSetup.configure isVerbose) := by
  refine (keeps_openCopy hfiles).bind fun copy h => ?_
  simp only [outcome_bind, outcome_modify, outcome_get]
  split
  · exact (hlogging _ _).trans (hlogging h _)
  · simp only [outcome_bind, outcome_modify, outcome_throw]
    exact (hrecord _ _).trans (hlogging h _)

/-- Setting up logging opens a file, sets the logging and writes records. -/
theorem keeps_enter (given : Arguments) : Keeps look (enter given) := by
  have hlog : ∀ level message, Keeps look (log level message) := fun _ _ h => hrecord h _
  refine (keeps_configure hrecord hfiles hlogging _).bind fun _ => ?_
  cases given.has verboseFlag with
  | true => exact (hlog _ _).bind fun _ => hlog _ _
  | false => exact hlog _ _

end setup

theorem keepsLaunches_enter (given : Arguments) : KeepsLaunches (enter given) :=
  keeps_enter Host.launches_accept (fun _ _ => rfl) (fun _ _ => rfl) given

/-- Where nobody asks for more, warnings are logged and not copied. -/
theorem outcome_enter_of_unrequested (hverbose : verboseFlag ∉ given)
    (hrequested : LogSetup.requested h = (none, none)) :
    outcome (enter given) h = (.ok (), { h with logging := .configured .warning none }) := by
  have hplain : given.has verboseFlag = false := by
    rw [has_eq_decide (by decide), decide_eq_false hverbose]
  have hconfigure : outcome (LogSetup.configure false) h =
      (.ok (), { h with logging := .configured .warning none }) := by
    have hagain : LogSetup.requested { h with logging := .configured .warning none } = (none, none) :=
      hrequested
    have hthreshold : Log.threshold false none = .ok .warning := rfl
    simp only [LogSetup.configure, LogSetup.openCopy, outcome_bind, outcome_get, outcome_modify,
      hrequested, Option.filter_none, outcome_pure]
    rw [hagain, hthreshold]
    rfl
  simp only [enter, hplain, outcome_bind, hconfigure]
  rfl

/-- The way from the arguments to the exit code. -/
def proceed (runner : Runner) (name : String) (given : Arguments) : Course → Action Int
  | .ended code => return code
  | .configured rest c => do
    let code ← dispatch runner c (Path.base name) rest
    debug ("Calling " ++ Text.quotedList (name :: given) ++ " returned " ++ toString code)
    return code

theorem run_eq (hversion : versionFlag ∉ given) :
    run runner name given = (do
      enter given
      let way ← course runner (Path.base name) (given.withoutEvery verboseFlag false)
      proceed runner name given way) := by
  simp only [run, enter, has_eq_decide (show versionFlag ≠ "" by decide), hversion, decide_false,
    Bool.false_eq_true, ↓reduceIte, bind_assoc]
  cases given.has verboseFlag <;> rfl

/-- Only a failure of the wrapper itself becomes an exit code. -/
def told {α : Type} (ended : Int → α) : Except Fault α × Host → Except Fault α × Host
  | (.error (.failure cause), h) =>
    (.ok (ended cause.exitCode),
      h.accept (h.ownRecord .error ("failed to extract config from args: " ++ cause.message)))
  | out => out

theorem outcome_course_of_error {fault : Fault}
    (hextract : outcome (extract runner args) h = (.error fault, h')) :
    outcome (course runner invokedAs args) h = told .ended (.error fault, h') := by
  simp only [course, outcome_tryCatch, outcome_bind, hextract]
  cases fault <;> rfl

theorem outcome_course_of_config {rest : Arguments} {c : Config}
    (hextract : outcome (extract runner args) h = (.ok (rest, some c), h')) :
    outcome (course runner invokedAs args) h = (.ok (.configured rest c), h') := by
  simp only [course, outcome_tryCatch, outcome_bind, hextract]
  rfl

theorem outcome_course_of_none {rest : Arguments}
    (hextract : outcome (extract runner args) h = (.ok (rest, none), h')) :
    outcome (course runner invokedAs args) h =
      told .ended ((outcome (withoutConfig runner invokedAs rest) h').1.map .ended,
        (outcome (withoutConfig runner invokedAs rest) h').2) := by
  simp only [course, outcome_tryCatch, outcome_bind, hextract]
  rcases outcome (withoutConfig runner invokedAs rest) h' with ⟨fault | code, h''⟩
  · cases fault <;> rfl
  · rfl

theorem outcome_run_of_enter (hversion : versionFlag ∉ given)
    (henter : outcome (enter given) h = (.ok (), h₁)) :
    outcome (run runner name given) h =
      outcome (course runner (Path.base name) (given.withoutEvery verboseFlag false) >>=
        proceed runner name given) h₁ := by
  rw [run_eq hversion, outcome_bind, henter]

/-- Without a configuration the driver gets all the arguments, if there is one. -/
structure PassesOn (runner : Runner) (invokedAs : String) (args : Arguments) (h : Host)
    (out : Except Fault Int × Host) : Prop where
  found : ∀ driver h', outcome (Compiler.locate none
      (Compiler.driverName invokedAs (SourceFile.ofArguments args).language)) h = (.ok driver, h') →
    out = told id (outcome (passThrough runner driver args) h') ∧
      out.2.launches.map (·.command) = h.launches.map (·.command) ++ [driver :: args]
  missing : ∀ fault h', outcome (Compiler.locate none
      (Compiler.driverName invokedAs (SourceFile.ofArguments args).language)) h =
        (.error fault, h') →
    out.1 = .ok internalExitCode ∧ Host.RecordsTo h out.2

/-- With a configuration the run goes on with what is left of the arguments. -/
structure RunsWith (runner : Runner) (name file : String) (given rest : Arguments) (h : Host)
    (out : Except Fault Int × Host) : Prop where
  loaded : ∀ c h', outcome (load runner file (dryRunFlag ∈ given) (retainFlag ∈ given)) h =
      (.ok c, h') →
    (c.isDryRun = true ↔ dryRunFlag ∈ given) ∧ (c.retainsWorkspace = true ↔ retainFlag ∈ given) ∧
      out.1 = (outcome (dispatch runner c (Path.base name) rest) h').1 ∧
      Host.RecordsTo (outcome (dispatch runner c (Path.base name) rest) h').2 out.2
  refused : ∀ fault h', outcome (load runner file (dryRunFlag ∈ given) (retainFlag ∈ given)) h =
      (.error fault, h') →
    out = told id (.error fault, h')

theorem launches_of_passThrough (runner : Runner) (driver : String) (args : Arguments) (h : Host) :
    (outcome (passThrough runner driver args) h).2.launches.map (·.command) =
      h.launches.map (·.command) ++ [driver :: args] := by
  obtain ⟨answer, hvisible, -⟩ :=
    forwarded_of_shows (Job.follows_events runner (forward driver args) h).shows
  have hcalls : Job.calls ((forward driver args).events runner h) =
      [⟨driver :: args, none, answer⟩] := by
    rw [← Job.calls_visible, hvisible]
    rfl
  rw [passThrough, (Job.passes_history runner (forward driver args) h).launches_eq]
  exact congrArg _ (congrArg _ hcalls)

/-- What is told does not touch the launches. -/
theorem recordsTo_told {α : Type} (ended : Int → α) (out : Except Fault α × Host) :
    Host.RecordsTo out.2 (told ended out).2 := by
  obtain ⟨(cause | _ | _ | _ | _) | a, h⟩ := out
  · exact .single h _
  all_goals exact .refl

theorem passesOn_withoutConfig (runner : Runner) (invokedAs : String) (args : Arguments) (h : Host) :
    PassesOn runner invokedAs args h (told id (outcome (withoutConfig runner invokedAs args) h)) := by
  constructor
  · intro driver h' hlocate
    have hrecords := Compiler.recordsTo_of_locate h none
      (Compiler.driverName invokedAs (SourceFile.ofArguments args).language)
    have hrun : outcome (withoutConfig runner invokedAs args) h =
        outcome (passThrough runner driver args) h' := by
      simp only [withoutConfig, outcome_bind, hlocate]
    rw [hlocate] at hrecords
    rw [hrun]
    refine ⟨rfl, ?_⟩
    rw [(recordsTo_told id _).launches_eq, launches_of_passThrough, hrecords.launches_eq]
  · intro fault h' hlocate
    obtain ⟨route, found, hl⟩ | ⟨h'', hrecords, hrefused⟩ := Compiler.located_or_refused h none
      (Compiler.driverName invokedAs (SourceFile.ofArguments args).language)
    · obtain ⟨h'', -, hfound⟩ := Compiler.outcome_locate_of_located hl
      exact nomatch hlocate.symm.trans hfound
    · obtain ⟨⟨⟩⟩ := hlocate.symm.trans hrefused
      have hrun : outcome (withoutConfig runner invokedAs args) h =
          (.error (.failure (.configuration (.driverNotFound (Compiler.driverName invokedAs
            (SourceFile.ofArguments args).language) Compiler.defaultDirectoryVariable))), h') := by
        simp only [withoutConfig, outcome_bind, hlocate]
      rw [hrun]
      exact ⟨rfl, hrecords.accept _⟩

/-- What becomes of a command line that comes down to `F` without its switches. -/
structure Forwards (runner : Runner) (name : String) (given F : Arguments) (h : Host) : Prop where
  notEntered : ∀ fault h₁, outcome (enter given) h = (.error fault, h₁) →
    outcome (run runner name given) h = (.error fault, h₁) ∧ h₁.launches = h.launches
  plain : fileFlag ∉ F → ∀ h₁, outcome (enter given) h = (.ok (), h₁) →
    ∃ h₂, h₂.launches = h.launches ∧ Host.RecordsTo h₁ h₂ ∧
      PassesOn runner (Path.base name) F h₂ (outcome (run runner name given) h)
  named : ∀ before file after, F = before ++ fileFlag :: file :: after → fileFlag ∉ before →
    file ≠ "" → ∀ h₁, outcome (enter given) h = (.ok (), h₁) →
      ∃ h₂, h₂.launches = h.launches ∧ Host.RecordsTo h₁ h₂ ∧
        RunsWith runner name file given (before ++ after) h₂ (outcome (run runner name given) h)
  unnamed : ∀ before after, F = before ++ fileFlag :: after → fileFlag ∉ before →
    after.headD "" = "" →
      extract runner (given.withoutEvery verboseFlag false) = (do
        debug startText
        refuse (.fileNotNamed fileFlag)) ∧
      run runner name given = (do
        enter given
        debug startText
        log .error ("failed to extract config from args: " ++
          (ConfigurationError.fileNotNamed fileFlag).message)
        return internalExitCode)

section cases
variable (hversion : versionFlag ∉ given) (henter : outcome (enter given) h = (.ok (), h₁))
include hversion henter

theorem outcome_run_of_error {fault : Fault}
    (hextract : outcome (extract runner (given.withoutEvery verboseFlag false)) h₁ =
      (.error fault, h')) :
    outcome (run runner name given) h = told id (.error fault, h') := by
  rw [outcome_run_of_enter hversion henter, outcome_bind, outcome_course_of_error hextract]
  cases fault <;> rfl

theorem outcome_run_of_none {rest : Arguments}
    (hextract : outcome (extract runner (given.withoutEvery verboseFlag false)) h₁ =
      (.ok (rest, none), h')) :
    outcome (run runner name given) h =
      told id (outcome (withoutConfig runner (Path.base name) rest) h') := by
  rw [outcome_run_of_enter hversion henter, outcome_bind, outcome_course_of_none hextract]
  rcases outcome (withoutConfig runner (Path.base name) rest) h' with ⟨fault | code, h''⟩
  · cases fault <;> rfl
  · rfl

/-- Without a file of a configuration two records come before the search for the driver. -/
theorem outcome_run_of_plain (runner : Runner) (name : String) (hfile : fileFlag ∉ unswitched given) :
    ∃ h₂, Host.RecordsTo h₁ h₂ ∧ outcome (run runner name given) h =
      told id (outcome (withoutConfig runner (Path.base name) (unswitched given)) h₂) := by
  let started := h₁.accept (h₁.ownRecord .debug startText)
  have hstart : Host.RecordsTo h₁ started := .single h₁ _
  refine ⟨_, hstart.accept (started.ownRecord .debug ("Failed to find " ++ fileFlag)), ?_⟩
  rw [← withoutSwitches_withoutEvery] at hfile ⊢
  exact outcome_run_of_none hversion henter (by rw [extract_of_notMem hfile]; rfl)

theorem outcome_run_of_config {rest : Arguments} {c : Config}
    (hextract : outcome (extract runner (given.withoutEvery verboseFlag false)) h₁ =
      (.ok (rest, some c), h')) :
    outcome (run runner name given) h = outcome (proceed runner name given (.configured rest c)) h' := by
  rw [outcome_run_of_enter hversion henter, outcome_bind, outcome_course_of_config hextract]

/-- The configuration loads or it does not; before that one record is written. -/
theorem runsWith_of_named {before after : Arguments} {file : String}
    (hF : unswitched given = before ++ fileFlag :: file :: after) (first : fileFlag ∉ before)
    (hnamed : file ≠ "") :
    RunsWith runner name file given (before ++ after) (h₁.accept (h₁.ownRecord .debug startText))
      (outcome (run runner name given) h) := by
  rw [← withoutSwitches_withoutEvery] at hF
  have hvalue : valueAfter fileFlag (withoutSwitches (given.withoutEvery verboseFlag false)) = file := by
    rw [hF, valueAfter_append_pair first]
  have hrest : (withoutSwitches (given.withoutEvery verboseFlag false)).without fileFlag true =
      before ++ after := by
    rw [hF]
    exact (dropsPair_iff (by decide)).mp (.pair first)
  have hextract : extract runner (given.withoutEvery verboseFlag false) = (do
      debug startText
      let c ← load runner file (dryRunFlag ∈ given) (retainFlag ∈ given)
      return (before ++ after, some c)) := by
    rw [extract_of_named (by rw [hF]; simp) (by rwa [hvalue]), hvalue, hrest,
      has_withoutEvery (by decide) (by decide), has_withoutEvery (by decide) (by decide)]
  constructor
  · intro c h' hload
    obtain ⟨hdry, hretain⟩ := switches_of_load hload
    have hloaded : outcome (extract runner (given.withoutEvery verboseFlag false)) h₁ =
        (.ok (before ++ after, some c), h') := by
      rw [hextract]
      simp only [outcome_bind, outcome_debug, hload, outcome_pure]
    rw [outcome_run_of_config hversion henter hloaded]
    refine ⟨by rw [hdry, decide_eq_true_eq], by rw [hretain, decide_eq_true_eq], ?_⟩
    simp only [proceed, outcome_bind]
    rcases outcome (dispatch runner c (Path.base name) (before ++ after)) h' with ⟨fault | code, h''⟩
    · exact ⟨rfl, .refl⟩
    · exact ⟨rfl, .single h'' _⟩
  · intro fault h' hload
    have hrefused : outcome (extract runner (given.withoutEvery verboseFlag false)) h₁ =
        (.error fault, h') := by
      rw [hextract]
      simp only [outcome_bind, outcome_debug, hload]
    exact outcome_run_of_error hversion henter hrefused

end cases

theorem extract_of_headD_eq {before after : Arguments}
    (hF : unswitched given = before ++ fileFlag :: after) (first : fileFlag ∉ before)
    (hunnamed : after.headD "" = "") :
    extract runner (given.withoutEvery verboseFlag false) = (do
      debug startText
      refuse (.fileNotNamed fileFlag)) := by
  rw [← withoutSwitches_withoutEvery] at hF
  refine extract_of_unnamed (by rw [hF]; simp) ?_
  rw [hF, valueAfter_append_of_notMem first, valueAfter, if_pos rfl, hunnamed]

theorem forwards_unswitched (runner : Runner) (name : String) (h : Host)
    (hversion : versionFlag ∉ given) : Forwards runner name given (unswitched given) h where
  notEntered fault h₁ henter := by
    have hlaunches := keepsLaunches_enter given h
    rw [henter] at hlaunches
    rw [run_eq hversion, outcome_bind, henter]
    exact ⟨rfl, hlaunches⟩
  plain hfile h₁ henter := by
    have hlaunches := keepsLaunches_enter given h
    rw [henter] at hlaunches
    obtain ⟨h₂, hrecords, hrun⟩ := outcome_run_of_plain hversion henter runner name hfile
    refine ⟨h₂, hrecords.launches_eq.trans hlaunches, hrecords, ?_⟩
    rw [hrun]
    exact passesOn_withoutConfig runner _ _ _
  named before file after hF first hnamed h₁ henter := by
    have hlaunches := keepsLaunches_enter given h
    rw [henter] at hlaunches
    have hrecords := Host.RecordsTo.single h₁ (h₁.ownRecord .debug startText)
    exact ⟨_, hrecords.launches_eq.trans hlaunches, hrecords,
      runsWith_of_named hversion henter hF first hnamed⟩
  unnamed before after hF first hunnamed := by
    have hextract : extract runner (given.withoutEvery verboseFlag false) = _ :=
      extract_of_headD_eq hF first hunnamed
    refine ⟨hextract, ?_⟩
    rw [run_eq hversion]
    simp only [course, hextract]
    rfl

/-- Everything but the switches and the file of a configuration is handed on, and switches that are put in
make no difference to that. -/
theorem run_forwards_arguments (runner : Runner) (name : String) (h : Host)
    (hversion : versionFlag ∉ given) :
    Forwards runner name given (unswitched given) h ∧
      ∀ more, WithSwitches given more →
        unswitched more = unswitched given ∧ Forwards runner name more (unswitched given) h := by
  refine ⟨forwards_unswitched runner name h hversion, fun more hmore => ?_⟩
  have hversion' : versionFlag ∉ more := fun hmem => hversion ((hmore.mem_iff (by decide)).mp hmem)
  exact ⟨hmore.unswitched_eq, hmore.unswitched_eq ▸ forwards_unswitched runner name h hversion'⟩

/-- Switches stand at the end, in front of the source file, and between the flag and its file. -/
theorem run_forwards_arguments_spread :
    versionFlag ∉ ["-c", fileFlag, "/c", "a.c"] ∧
      WithSwitches ["-c", fileFlag, "/c", "a.c"]
        ["-c", fileFlag, dryRunFlag, "/c", retainFlag, "a.c", verboseFlag] ∧
      Forwards answering "conjunct" ["-c", fileFlag, dryRunFlag, "/c", retainFlag, "a.c", verboseFlag]
        ["-c", fileFlag, "/c", "a.c"] configured := by
  have hversion : versionFlag ∉ ["-c", fileFlag, "/c", "a.c"] := by decide
  have hmore : WithSwitches ["-c", fileFlag, "/c", "a.c"]
      ["-c", fileFlag, dryRunFlag, "/c", retainFlag, "a.c", verboseFlag] :=
    .keep "-c" (.keep fileFlag (.put (by decide) (.keep "/c" (.put (by decide)
      (.keep "a.c" (.put (by decide) .nil))))))
  exact ⟨hversion, hmore, ((run_forwards_arguments answering "conjunct" configured hversion).2 _ hmore).2⟩

end BitcodeWrapper.Command
