import BitcodeWrapper.Proofs.Command.Forward
import BitcodeWrapper.Proofs.Config.Probes
import BitcodeWrapper.Proofs.Host.Process
import BitcodeWrapper.Proofs.Pipeline.Blame

/-! Runs that meet an error in their configuration. It comes up before there is a workspace and before
anything is started but queries, whether it is in the arguments, in the file or in the search for the driver,
and the run ends with the exit code one. -/
namespace BitcodeWrapper

/-- A runner that raises no failure of the wrapper, makes no workspace for it and leaves its notes alone. -/
structure Runner.IsOutside (runner : Runner) : Prop where
  raises : ∀ command environment h cause,
    (Action.outcome (runner command environment) h).1 ≠ .error (.failure cause)
  attempts : ∀ command environment h,
    (Action.outcome (runner command environment) h).2.attempts = h.attempts
  launches : ∀ command environment h,
    (Action.outcome (runner command environment) h).2.launches = h.launches

/-- Child processes are outside of the wrapper. -/
theorem Runner.isOutside_processes : Runner.processes.IsOutside where
  raises command environment h cause hraised := by
    rw [outcome_processes] at hraised
    obtain ⟨-, hspawn⟩ | ⟨e, hspawn⟩ | ⟨finished, hspawn⟩ :=
      Action.cases_of_spawn command environment (announced command h) <;>
      rw [hspawn] at hraised <;> exact nomatch hraised
  attempts := keeps_processes Host.attempts_accept fun _ _ => rfl
  launches := keeps_processes Host.launches_accept fun _ _ => rfl

namespace Pipeline
open BitcodeWrapper.Action Job

variable {runner : Runner} {c : Config} {driver : String} {args : Arguments} {es : List Event}
  {names : List String} {cs : List Call} {cause : ConfigurationError} {h : Host}

/-- The fault of an error in the configuration. -/
abbrev misconfigured (cause : ConfigurationError) : Fault := .failure (.configuration cause)

/-- What a stage makes of an answer is an error in the configuration only if the answer is. -/
theorem settled_eq_misconfigured {stage : String} {command : List String} {answer : Except Fault Reply}
    (h : settled stage command answer = .error (misconfigured cause)) :
    answer = .error (misconfigured cause) := by
  rcases answer with fault | reply
  · cases fault <;> cases h
    rfl
  · rw [settled] at h
    split at h <;> cases h

theorem forwarded_eq_misconfigured {answer : Except Fault Reply}
    (h : forwarded answer = .error (misconfigured cause)) : answer = .error (misconfigured cause) := by
  rcases answer with fault | reply
  · cases fault <;> cases h
    rfl
  · exact nomatch h

theorem Staged.raised {α : Type} (hstaged : Staged (α := α) es names cs (.error (misconfigured cause))) :
    ∃ call ∈ cs, call.answer = .error (misconfigured cause) := by
  generalize hr : Except.error (misconfigured cause) = r at hstaged
  induction hstaged with
  | ended a => exact nomatch hr
  | unlaunched h =>
    cases hr
    cases h
  | stopped fails =>
    cases hr
    exact ⟨_, List.mem_cons_self, settled_eq_misconfigured fails⟩
  | next succeeds rest ih =>
    obtain ⟨call, hmem, hanswer⟩ := ih hr
    exact ⟨call, List.mem_cons_of_mem _ hmem, hanswer⟩

/-- Once the driver is found, an error in the configuration can only come from a command. -/
theorem raised_of_shows_work {vs : List Event}
    (hshows : Shows (work c driver args) vs (.error (misconfigured cause))) :
    ∃ call ∈ calls vs, call.answer = .error (misconfigured cause) := by
  rw [work] at hshows
  split at hshows
  · obtain ⟨answer, rfl, hresult⟩ := forwarded_of_shows (shows_log_bind_iff.mp hshows)
    exact ⟨_, List.mem_cons_self, forwarded_eq_misconfigured hresult.symm⟩
  · obtain ⟨fault, hcompiles, hresult⟩ | ⟨object, vs₁, vs₂, rfl, -, hend⟩ := shows_bind_iff.mp hshows
    · cases hresult
      exact (staged_of_shows_compile hcompiles).raised
    · cases (shows_pure_iff.mp hend).2

end Pipeline

namespace Runner.IsOutside
open BitcodeWrapper.Action Job Pipeline

variable {runner : Runner} {driver : String} {args : Arguments} {cause : ConfigurationError}

/-- A command that is handed to such a runner raises no error in the configuration. -/
theorem answer_ne (hrunner : runner.IsOutside) {h h' : Host} {ms : List Moment}
    (hp : Passes runner h ms h') {call : Call} (hmem : call ∈ calls (ms.map (·.event))) :
    call.answer ≠ .error (misconfigured cause) := by
  obtain ⟨before, hanswer⟩ := hp.answer_of_mem_calls hmem
  rw [← hanswer]
  exact hrunner.raises _ _ before _

theorem work_ne (hrunner : runner.IsOutside) (c : Config) (h : Host) :
    (outcome ((work c driver args).run runner) h).1 ≠ .error (misconfigured cause) := by
  intro hraised
  have hshows := (follows_events runner (work c driver args) h).shows
  rw [hraised] at hshows
  obtain ⟨call, hmem, hanswer⟩ := raised_of_shows_work hshows
  rw [calls_visible] at hmem
  exact hrunner.answer_ne (passes_history runner (work c driver args) h) hmem hanswer

theorem passThrough_ne (hrunner : runner.IsOutside) (h : Host) :
    (outcome (passThrough runner driver args) h).1 ≠ .error (misconfigured cause) := by
  intro hraised
  have hshows := (follows_events runner (forward driver args) h).shows
  rw [← passThrough, hraised] at hshows
  obtain ⟨answer, hvisible, hresult⟩ := forwarded_of_shows hshows
  have hmem : ⟨driver :: args, none, answer⟩ ∈ calls ((forward driver args).events runner h) := by
    rw [← calls_visible, hvisible]
    exact List.mem_cons_self
  exact hrunner.answer_ne (passes_history runner (forward driver args) h) hmem
    (forwarded_eq_misconfigured hresult.symm)

end Runner.IsOutside

namespace Config
open BitcodeWrapper.Action Arguments

variable {runner : Runner} {args : Arguments} {h : Host}

/-- A path that leads to a tool of the configuration that the arguments name. -/
def ToolNamed (args : Arguments) (h₀ : Host) (name : String) (h : Host) (path : String) : Prop :=
  ∃ before file after, withoutSwitches args = before ++ fileFlag :: file :: after ∧
    fileFlag ∉ before ∧
      FileNames Config.reader (h₀.accept (h₀.ownRecord .debug startText)) file name h path

/-- However the reading of the arguments ends, at most the tools of their configuration are asked. -/
theorem asksOnly_extract (runner : Runner) (args : Arguments) (h : Host) :
    AsksOnly runner (ToolNamed args h) ["clang", "opt"] (extract runner args) h := by
  by_cases hfile : fileFlag ∈ withoutSwitches args
  · obtain ⟨before, after, hargs, hfirst⟩ := List.eq_append_cons_of_mem hfile
    by_cases hvalue : valueAfter fileFlag (withoutSwitches args) = ""
    · rw [extract_of_unnamed hfile hvalue]
      exact (asksOnly_debug startText).bind fun _ _ _ => .of_stays (stays_refuse _)
    · rw [extract_of_named hfile hvalue]
      cases after with
      | nil =>
        rw [hargs, valueAfter_append_of_notMem hfirst] at hvalue
        exact absurd rfl hvalue
      | cons file after =>
        rw [hargs, valueAfter_append_pair hfirst]
        refine (asksOnly_debug startText).bind fun _ k hk => ?_
        cases hk
        refine AsksOnly.bind ((asksOnly_load runner file _ _ _).mono ?_) fun _ _ _ =>
          .of_stays (stays_pure _)
        exact fun _ _ _ hnamed => ⟨before, file, after, hargs, hfirst, hnamed⟩
  · rw [extract_of_notMem hfile]
    refine (asksOnly_debug startText).bind fun _ _ _ => ?_
    refine (asksOnly_debug _).bind fun _ _ _ => .of_stays (stays_pure _)

end Config

namespace Command
open BitcodeWrapper.Action Config Pipeline

variable {runner : Runner} {name invokedAs : String} {given args : Arguments}
  {cause : ConfigurationError} {h h₁ : Host}

/-- Where an error in the configuration can come up once logging is set up: while the arguments are read, in
a run without a configuration, or in a run with one. -/
inductive Meets (runner : Runner) (invokedAs : String) (args : Arguments) (cause : ConfigurationError)
    (h : Host) : Prop
  | reading {h' : Host} (raised : outcome (extract runner args) h = (.error (misconfigured cause), h'))
  | plain {rest : Arguments} {h₁ h' : Host} (read : outcome (extract runner args) h = (.ok (rest, none), h₁))
      (raised : outcome (withoutConfig runner invokedAs rest) h₁ = (.error (misconfigured cause), h'))
  | configured {rest : Arguments} {c : Config} {h₁ h' : Host}
      (read : outcome (extract runner args) h = (.ok (rest, some c), h₁))
      (raised : outcome (locateDriver c invokedAs rest >>= fun driver => (work c driver rest).run runner) h₁ =
        (.error (misconfigured cause), h'))

/-- A run that was given up with the exit code one. Since logging was set up nothing was started but queries
of the tools that the configuration names, at most one of each; no workspace was made. -/
structure GivesUp (runner : Runner) (args : Arguments) (h h₁ : Host) (out : Except Fault Int × Host) :
    Prop where
  code : out.1 = .ok 1
  queries : ∃ names, names.Sublist ["clang", "opt"] ∧ Probes runner (ToolNamed args h₁) h₁ names out.2
  unmade : out.2.attempts = h.attempts
  unlaunched : out.2.launches = h.launches

/-- The search for a driver that is in vain leaves records only, and what comes after it raises nothing. -/
theorem recordsTo_of_withoutConfig (hrunner : runner.IsOutside)
    (hraised : outcome (withoutConfig runner invokedAs args) h = (.error (misconfigured cause), h₁)) :
    Host.RecordsTo h h₁ := by
  have hrecords := Compiler.recordsTo_of_locate h none
    (Compiler.driverName invokedAs (SourceFile.ofArguments args).language)
  rcases hlocate : outcome (Compiler.locate none
      (Compiler.driverName invokedAs (SourceFile.ofArguments args).language)) h with ⟨fault | driver, k⟩ <;>
    simp only [withoutConfig, outcome_bind, hlocate] at hraised hrecords
  · cases hraised
    exact hrecords
  · exact absurd (congrArg Prod.fst hraised) (hrunner.passThrough_ne k)

theorem recordsTo_of_withConfig (hrunner : runner.IsOutside) {c : Config}
    (hraised : outcome (locateDriver c invokedAs args >>= fun driver => (work c driver args).run runner) h =
      (.error (misconfigured cause), h₁)) : Host.RecordsTo h h₁ := by
  have hrecords := recordsTo_of_locateDriver c invokedAs args h
  rcases hlocate : outcome (locateDriver c invokedAs args) h with ⟨fault | driver, k⟩ <;>
    simp only [outcome_bind, hlocate] at hraised hrecords
  · cases hraised
    exact hrecords
  · exact absurd (congrArg Prod.fst hraised) (hrunner.work_ne c k)

/-- Neither setting up logging nor records and queries make a workspace or launch anything. -/
theorem givesUp_of_probes {names : List String} {h' : Host} (hrunner : runner.IsOutside)
    (henter : outcome (enter given) h = (.ok (), h₁)) (hsub : names.Sublist ["clang", "opt"])
    (hprobes : Probes runner (ToolNamed args h₁) h₁ names h') : GivesUp runner args h h₁ (.ok 1, h') := by
  have hattempts := @keeps_enter _ Host.attempts Host.attempts_accept (fun _ _ => rfl) (fun _ _ => rfl) given h
  have hlaunches := keepsLaunches_enter given h
  rw [henter] at hattempts hlaunches
  refine ⟨rfl, ⟨names, hsub, hprobes⟩, ?_, ?_⟩
  · exact (hprobes.keeps Host.attempts_accept fun _ _ => hrunner.attempts _ _ _).trans hattempts
  · exact (hprobes.keeps Host.launches_accept fun _ _ => hrunner.launches _ _ _).trans hlaunches

/-- An error in the configuration ends a run before it has done anything but ask the tools that the
configuration names for their versions. -/
theorem run_gives_up (hversion : versionFlag ∉ given) (henter : outcome (enter given) h = (.ok (), h₁))
    (hmeets : Meets runner (Path.base name) (given.withoutEvery verboseFlag false) cause h₁)
    (hrunner : runner.IsOutside) :
    GivesUp runner (given.withoutEvery verboseFlag false) h h₁ (outcome (run runner name given) h) := by
  obtain ⟨names, hsub, hprobes⟩ := asksOnly_extract runner (given.withoutEvery verboseFlag false) h₁
  cases hmeets with
  | reading raised =>
    rw [outcome_run_of_error hversion henter raised]
    rw [raised] at hprobes
    exact givesUp_of_probes hrunner henter hsub (hprobes.accept _)
  | plain read raised =>
    rw [outcome_run_of_none hversion henter read, raised]
    rw [read] at hprobes
    have hrecords := recordsTo_of_withoutConfig hrunner raised
    exact givesUp_of_probes hrunner henter hsub ((hprobes.records hrecords).accept _)
  | configured read raised =>
    rw [outcome_run_of_config hversion henter read]
    rw [read] at hprobes
    have hrecords := recordsTo_of_withConfig hrunner raised
    simp only [proceed, dispatch, outcome_bind, outcome_tryCatch_handle] at raised ⊢
    rw [raised]
    exact givesUp_of_probes hrunner henter hsub (((hprobes.records hrecords).accept _).accept _)

theorem isOutside_answering : answering.IsOutside :=
  ⟨fun _ _ _ _ => nofun, fun _ _ _ => rfl, fun _ _ _ => rfl⟩

/-- A machine with a minimal configuration, on which drivers are searched for nowhere. -/
def searchless : Host := { configured with environment := [(Host.searchVariable, "")] }

def searchlessArguments : Arguments := [fileFlag, "/c", "-c", "a.c"]

theorem outcome_locateDriver_searchless {c : Config} {k : Host} (hdriver : c.driver = none)
    (henvironment : k.environment = searchless.environment) :
    ∃ k', outcome (locateDriver c "conjunct" ["-c", "a.c"]) k = (.error (misconfigured
      (.driverNotFound "clang" Compiler.defaultDirectoryVariable)), k') := by
  have hname : Compiler.driverName "conjunct" (SourceFile.ofArguments ["-c", "a.c"]).language = "clang" := by
    decide +kernel
  have hdefault : (k.environment.get? Compiler.defaultDirectoryVariable).filter (· != "") = none := by
    rw [henvironment]
    rfl
  have hplain : Path.directory "clang" = "" := by decide +kernel
  have hsearch : k.findProgram? "clang" = none := by
    rw [Host.findProgram?, if_neg (by rw [hplain]; decide), henvironment]
    rfl
  simp only [locateDriver, hdriver, hname, Compiler.locate, Option.filter_none, outcome_bind, outcome_get,
    hdefault, hsearch, outcome_log]
  exact ⟨_, rfl⟩

/-- The configuration loads, and the search for a driver is in vain. -/
theorem meets_searchless : Meets answering "conjunct" searchlessArguments
    (.driverNotFound "clang" Compiler.defaultDirectoryVariable)
    { searchless with logging := .configured .warning none } := by
  have hextract := @outcome_extract_minimalText searchlessArguments
    { searchless with logging := .configured .warning none } [] ["-c", "a.c"] false rfl rfl (by decide) rfl
  obtain ⟨k, hlocate⟩ := @outcome_locateDriver_searchless
    ⟨1, none, "/opt", [], [], searchlessArguments.has retainFlag, searchlessArguments.has dryRunFlag⟩
    { searchless with logging := .configured .warning none } rfl rfl
  apply Meets.configured hextract
  rw [List.nil_append, outcome_bind, hlocate]

theorem run_gives_up_searchless :
    versionFlag ∉ searchlessArguments ∧ answering.IsOutside ∧
      ∃ cause h₁, outcome (enter searchlessArguments) searchless = (.ok (), h₁) ∧
        Meets answering "conjunct" searchlessArguments cause h₁ ∧
        GivesUp answering searchlessArguments searchless h₁
          (outcome (run answering "conjunct" searchlessArguments) searchless) := by
  have hversion : versionFlag ∉ searchlessArguments := by decide
  have houtside : answering.IsOutside := isOutside_answering
  have henter : outcome (enter searchlessArguments) searchless =
      (.ok (), { searchless with logging := .configured .warning none }) :=
    outcome_enter_of_unrequested (by decide) rfl
  have hname : Path.base "conjunct" = "conjunct" := by decide +kernel
  have hargs : searchlessArguments.withoutEvery verboseFlag false = searchlessArguments := by decide +kernel
  have hmeets := meets_searchless
  rw [← hname, ← hargs] at hmeets
  have hgives := run_gives_up hversion henter hmeets houtside
  rw [hargs] at hgives
  exact ⟨hversion, houtside, _, _, henter, meets_searchless, hgives⟩

end Command

end BitcodeWrapper
