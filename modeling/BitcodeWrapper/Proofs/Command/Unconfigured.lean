import BitcodeWrapper.Proofs.Command.Forward
import BitcodeWrapper.Proofs.Config.Accept
import BitcodeWrapper.Proofs.Host.Agreement
import BitcodeWrapper.Proofs.Pipeline.PassThrough

/-! Command lines that compile nothing, with and without a configuration. One that names no driver makes no
difference to them: the same driver is found or none, it is launched on the same arguments, and what it
prints and how it exits is told in the same way. Only the log tells the two runs apart. -/
namespace BitcodeWrapper
open BitcodeWrapper.Action

variable {runner : Runner} {h h' : Host}

namespace Compiler

/-- The log has no say in where the driver is. -/
theorem Located.of_agrees {configured : Option String} {name driver : String} {route : Route}
    (ha : h.Agrees h') (hl : Located h configured name route driver) :
    Located h' configured name route driver := by
  cases hl with
  | file given isFile => exact .file given ((ha.isDirectory_eq _).trans isFile)
  | directory given isDirectory => exact .directory given ((ha.isDirectory_eq _).trans isDirectory)
  | defaultDirectory notGiven set => exact .defaultDirectory notGiven (ha.environment ▸ set)
  | search notGiven notSet found =>
    exact .search notGiven (ha.environment ▸ notSet) ((ha.findProgram?_eq _).trans found)

theorem agreeing_locate (ha : h.Agrees h') (configured : Option String) (name : String) :
    Agreeing (outcome (locate configured name) h) (outcome (locate configured name) h') := by
  obtain ⟨route, driver, hl⟩ | ⟨k, hrecords, hrefused⟩ := located_or_refused h configured name
  · obtain ⟨k, hrecords, hout⟩ := outcome_locate_of_located hl
    obtain ⟨k', hrecords', hout'⟩ := outcome_locate_of_located (hl.of_agrees ha)
    have hpreferred : preferred h' route driver = preferred h route driver := by
      rw [preferred, preferred, ha.pathExists_eq]
    rw [hout, hout', hpreferred]
    exact ⟨rfl, ha.recordsTo hrecords hrecords'⟩
  · obtain ⟨route, driver, hl⟩ | ⟨k', hrecords', hrefused'⟩ := located_or_refused h' configured name
    · obtain ⟨_, -, hfound⟩ := outcome_locate_of_located (hl.of_agrees ha.symm)
      cases hrefused.symm.trans hfound
    · rw [hrefused, hrefused']
      exact ⟨rfl, ha.recordsTo hrecords hrecords'⟩

end Compiler

namespace Pipeline
open Job

variable {c : Config} {invokedAs driver : String} {args : Arguments}

/-- The log has no say in what is launched and what comes of it. -/
theorem agreeing_launch (ha : h.Agrees h') (hruns : runner.IgnoresLog h.logging)
    (command : List String) :
    Agreeing ((Step.launch command none).outcome runner h)
      ((Step.launch command none).outcome runner h') := by
  have hnoted : (h'.launches ++ [Launch.mk command none h'.files]).map Launch.request =
      (h.launches ++ [Launch.mk command none h.files]).map Launch.request := by
    rw [List.map_append, List.map_append, ha.requests]
    rfl
  have hrun := hruns command { h with launches := h.launches ++ [⟨command, none, h.files⟩] } _ rfl
    (ha.withLaunches hnoted)
  rw [Step.outcome_launch, Step.outcome_launch]
  exact ⟨hrun.result, hrun.agrees.withLaunches hnoted⟩

theorem agreeing_passThrough (ha : h.Agrees h') (hruns : runner.IgnoresLog h.logging)
    (driver : String) (args : Arguments) :
    Agreeing (outcome (passThrough runner driver args) h)
      (outcome (passThrough runner driver args) h') := by
  have hready : (launching h).Agrees (launching h') := ha.accept _ _
  have hlogging : (launching h).logging = h.logging := Host.logging_accept h _
  have hlaunched := agreeing_launch hready (hlogging ▸ hruns) (driver :: args)
  rcases hlaunch : (Step.launch (driver :: args) none).outcome runner (launching h) with
    ⟨answer, after⟩
  rcases hlaunch' : (Step.launch (driver :: args) none).outcome runner (launching h') with
    ⟨answer', after'⟩
  rw [hlaunch, hlaunch'] at hlaunched
  obtain ⟨rfl, hafter⟩ : answer' = answer ∧ after.Agrees after' :=
    ⟨hlaunched.result, hlaunched.agrees⟩
  obtain ⟨ended, hrecords, hout⟩ := outcome_passThrough hlaunch
  obtain ⟨ended', hrecords', hout'⟩ := outcome_passThrough hlaunch'
  rw [hout, hout']
  exact ⟨rfl, (hafter.withOutput _).recordsTo hrecords hrecords'⟩

/-- Without the compile flag the work is that of passing the arguments through. -/
theorem outcome_work_of_notMem (hcompile : SourceFile.compileFlag ∉ args) (h : Host) :
    outcome ((work c driver args).run runner) h =
      outcome (passThrough runner driver args) (h.accept (h.ownRecord .debug notCompiling)) := by
  rw [work_of_notMem hcompile]
  exact outcome_run_step runner (.log .debug notCompiling) _ h

end Pipeline

namespace Config

/-- The file loads to a configuration without a driver, and the query of its optimizer leaves no trace but
in the log. -/
def LoadsQuietly (runner : Runner) (file : String) (isDryRun retainsWorkspace : Bool) (h : Host) :
    Prop :=
  ∃ c h', outcome (load runner file isDryRun retainsWorkspace) h = (.ok c, h') ∧ c.driver = none ∧
    ∀ reply h₁, outcome (runner [c.optimizer, Probe.versionSwitch] none) h = (.ok reply, h₁) →
      h.Agrees h₁

/-- Nothing else that loading does leaves a trace. -/
theorem LoadsQuietly.agrees {file : String} {isDryRun retainsWorkspace : Bool}
    (hquiet : LoadsQuietly runner file isDryRun retainsWorkspace h) :
    ∃ c h', outcome (load runner file isDryRun retainsWorkspace) h = (.ok c, h') ∧ c.driver = none ∧
      h.Agrees h' := by
  obtain ⟨c, h', hload, hdriver, hquery⟩ := hquiet
  refine ⟨c, h', hload, hdriver, ?_⟩
  obtain ⟨found, hfound, rfl⟩ := outcome_load_eq_ok_iff.mp hload
  obtain ⟨_, s, h₁, -, -, -, ⟨h₀, hnothing, hoptimizer⟩, -, -, rfl⟩ := outcome_ofFile_eq_ok_iff.mp hfound
  have hnone : found.driver = none := Option.map_eq_none_iff.mp hdriver
  rw [hnone] at hnothing
  cases hnothing with
  | nothing isNothing =>
    obtain ⟨received, output, hreceived, hanswer, -⟩ := hoptimizer.answers
    rw [← LooseText.handed_of_received hreceived] at hanswer
    exact (hquery _ _ hanswer).trans (.of_recordsTo (recordsTo_recorded found h₁))

theorem LoadsQuietly.ne_empty {file : String} {isDryRun retainsWorkspace : Bool}
    (hquiet : LoadsQuietly runner file isDryRun retainsWorkspace h) : file ≠ "" := by
  rintro rfl
  obtain ⟨c, h', hload, -⟩ := hquiet
  obtain ⟨found, hfound, -⟩ := outcome_load_eq_ok_iff.mp hload
  obtain ⟨_, _, _, htext, -⟩ := outcome_ofFile_eq_ok_iff.mp hfound
  obtain ⟨_, _, hread, -⟩ := htext.readable
  rw [Files.read, Files.stat, Files.find, if_pos rfl] at hread
  cases hread

end Config

namespace Command
open Arguments Config Pipeline
open SourceFile (compileFlag)

variable {name file : String} {given given' args before after : Arguments} {c : Config}

/-- On either way a failure becomes its exit code, and a record tells of it. -/
theorem agreeing_told_reported {out out' : Except Fault Int × Host} (ha : Agreeing out out') :
    Agreeing (told id out) (reported out') := by
  obtain ⟨result, k⟩ := out
  obtain ⟨result', k'⟩ := out'
  obtain ⟨rfl, hk⟩ : result' = result ∧ k.Agrees k' := ⟨ha.result, ha.agrees⟩
  rcases result' with (cause | _ | _ | _ | _) | code
  · exact ⟨rfl, hk.accept _ _⟩
  all_goals exact ⟨rfl, hk⟩

/-- A configuration without a driver is as good as none to a command line that compiles nothing. -/
theorem agreeing_withoutConfig_dispatch (hcompile : compileFlag ∉ args) (hdriver : c.driver = none)
    (ha : h.Agrees h') (hruns : runner.IgnoresLog h.logging) (invokedAs : String) :
    Agreeing (told id (outcome (withoutConfig runner invokedAs args) h))
      (outcome (dispatch runner c invokedAs args) h') := by
  have hlocate := Compiler.agreeing_locate ha none
    (Compiler.driverName invokedAs (SourceFile.ofArguments args).language)
  have hdispatch : locateDriver c invokedAs args = Compiler.locate none
      (Compiler.driverName invokedAs (SourceFile.ofArguments args).language) := by
    rw [locateDriver, hdriver]
  have hrecords := Compiler.recordsTo_of_locate h none
    (Compiler.driverName invokedAs (SourceFile.ofArguments args).language)
  rcases hout : outcome (Compiler.locate none (Compiler.driverName invokedAs
    (SourceFile.ofArguments args).language)) h with ⟨answer, k⟩
  rcases hout' : outcome (Compiler.locate none (Compiler.driverName invokedAs
    (SourceFile.ofArguments args).language)) h' with ⟨answer', k'⟩
  rw [hout] at hrecords
  rw [hout, hout'] at hlocate
  obtain ⟨rfl, hk⟩ : answer' = answer ∧ k.Agrees k' := ⟨hlocate.result, hlocate.agrees⟩
  cases answer' with
  | error fault =>
    have hplain : outcome (withoutConfig runner invokedAs args) h = (.error fault, k) := by
      simp only [withoutConfig, outcome_bind, hout]
    rw [hplain, outcome_dispatch_of_refused (by rw [hdispatch, hout'])]
    exact agreeing_told_reported ⟨rfl, hk⟩
  | ok driver =>
    have hplain : outcome (withoutConfig runner invokedAs args) h =
        outcome (passThrough runner driver args) k := by
      simp only [withoutConfig, outcome_bind, hout]
    have hlogging : k.logging = h.logging := hrecords.machine_eq.2.2.2
    rw [hplain, outcome_dispatch_of_located (by rw [hdispatch, hout']), outcome_work_of_notMem hcompile]
    refine agreeing_told_reported (agreeing_passThrough ?_ (hlogging ▸ hruns) driver args)
    exact hk.recordsTo .refl (.single k' _)

/-- Logging is set up alike for command lines with the same say in it; what they are differs in one record. -/
theorem agreeing_enter (hverbose : given'.has verboseFlag = given.has verboseFlag) (h : Host) :
    Agreeing (outcome (enter given) h) (outcome (enter given') h) := by
  simp only [enter, hverbose, outcome_bind]
  rcases outcome (LogSetup.configure (given.has verboseFlag)) h with ⟨fault | u, k⟩
  · exact ⟨rfl, .refl k⟩
  · cases given.has verboseFlag with
    | true =>
      simp only [↓reduceIte, outcome_bind, outcome_debug, outcome_log]
      exact ⟨rfl, (Host.Agrees.refl _).accept _ _⟩
    | false =>
      simp only [Bool.false_eq_true, ↓reduceIte, outcome_log]
      exact ⟨rfl, (Host.Agrees.refl k).accept _ _⟩

/-- The flags that a file of a configuration is not called by. -/
def flags : List String := versionFlag :: fileFlag :: switches

theorem unswitched_append (before after : Arguments) :
    unswitched (before ++ after) = unswitched before ++ unswitched after :=
  List.filter_append before after

/-- What is not on a command line is not on it without its switches. -/
theorem notMem_unswitched {flag : String} (h : flag ∉ given) : flag ∉ unswitched given :=
  fun hmem => h (List.mem_filter.mp hmem).1

section pair
variable (hname : file ∉ flags)
include hname

/-- The flag of a file and the file are no switches. -/
theorem unswitched_append_pair (before after : Arguments) :
    unswitched (before ++ fileFlag :: file :: after) =
      unswitched before ++ fileFlag :: file :: unswitched after := by
  have hflag : fileFlag ∉ switches := by decide
  have hfile : file ∉ switches := fun hmem =>
    hname (List.mem_cons_of_mem _ (List.mem_cons_of_mem _ hmem))
  simp [unswitched, hflag, hfile]

/-- Neither of the two is any other flag. -/
theorem mem_append_pair_iff {flag : String} (hflag : flag ∈ flags) (hne : flag ≠ fileFlag) :
    flag ∈ before ++ fileFlag :: file :: after ↔ flag ∈ before ++ after := by
  have hfile : flag ≠ file := by
    rintro rfl
    exact hname hflag
  simp [hne, hfile]

/-- With a configuration that has no driver the run goes on as without one, once logging is set up. -/
theorem agreeing_run_of_entered {k k' : Host} (hcompile : compileFlag ∉ before ++ after)
    (hversion : versionFlag ∉ before ++ after) (hfile : fileFlag ∉ before ++ after)
    (henter : outcome (enter (before ++ after)) h = (.ok (), k))
    (henter' : outcome (enter (before ++ fileFlag :: file :: after)) h = (.ok (), k'))
    (hk : k.Agrees k')
    (hquiet : LoadsQuietly runner file (dryRunFlag ∈ before ++ after) (retainFlag ∈ before ++ after)
      (k'.accept (k'.ownRecord .debug startText)))
    (hruns : runner.IgnoresLog k'.logging) (name : String) :
    Agreeing (outcome (run runner name (before ++ after)) h)
      (outcome (run runner name (before ++ fileFlag :: file :: after)) h) := by
  have hversion' : versionFlag ∉ before ++ fileFlag :: file :: after :=
    mt (mem_append_pair_iff hname (by decide) (by decide)).mp hversion
  have hfirst : fileFlag ∉ unswitched before :=
    notMem_unswitched fun hmem => hfile (List.mem_append_left _ hmem)
  obtain ⟨k₁, hrecords, hout⟩ :=
    outcome_run_of_plain hversion henter runner name (notMem_unswitched hfile)
  have hwith : RunsWith runner name file _ _ _ _ :=
    runsWith_of_named hversion' henter' (unswitched_append_pair hname before after) hfirst
      hquiet.ne_empty
  obtain ⟨c, k₂, hload, hdriver, hk₂⟩ := hquiet.agrees
  have hload' : outcome (load runner file (dryRunFlag ∈ before ++ fileFlag :: file :: after)
      (retainFlag ∈ before ++ fileFlag :: file :: after)) (k'.accept (k'.ownRecord .debug startText)) =
        (.ok c, k₂) := by
    rwa [decide_eq_decide.mpr (mem_append_pair_iff hname (by decide) (by decide)),
      decide_eq_decide.mpr (mem_append_pair_iff hname (by decide) (by decide))]
  obtain ⟨-, -, hresult, hended⟩ := hwith.loaded c k₂ hload'
  have hmachines : k₁.Agrees k₂ := (hk.recordsTo hrecords (.single k' _)).trans hk₂
  have hlogging : k₁.logging = k'.logging := hrecords.machine_eq.2.2.2.trans hk.logging.symm
  have hagreeing := agreeing_withoutConfig_dispatch (notMem_unswitched hcompile) hdriver hmachines
    (hlogging ▸ hruns) (Path.base name)
  rw [unswitched_append] at hagreeing hout
  rw [hout]
  exact ⟨hresult.trans hagreeing.result, hagreeing.agrees.trans (.of_recordsTo hended)⟩

end pair

/-- A configuration without a driver makes no difference to a run that compiles nothing, wherever on the
command line it is named: the same is launched in the same environment, the same is printed, and the run
comes to the same end. -/
theorem run_agrees_unconfigured (hcompile : compileFlag ∉ before ++ after)
    (hversion : versionFlag ∉ before ++ after) (hfile : fileFlag ∉ before ++ after)
    (hname : file ∉ flags)
    (hloads : ∀ k, outcome (enter (before ++ fileFlag :: file :: after)) h = (.ok (), k) →
      LoadsQuietly runner file (dryRunFlag ∈ before ++ after) (retainFlag ∈ before ++ after)
        (k.accept (k.ownRecord .debug startText)) ∧ runner.IgnoresLog k.logging) (name : String) :
    Agreeing (outcome (run runner name (before ++ after)) h)
      (outcome (run runner name (before ++ fileFlag :: file :: after)) h) := by
  have hverbose : (before ++ fileFlag :: file :: after).has verboseFlag =
      (before ++ after).has verboseFlag := by
    rw [has_eq_decide (by decide), has_eq_decide (by decide)]
    exact decide_eq_decide.mpr (mem_append_pair_iff hname (by decide) (by decide))
  have hentered := agreeing_enter hverbose h
  rcases henter : outcome (enter (before ++ after)) h with ⟨answer, k⟩
  rcases henter' : outcome (enter (before ++ fileFlag :: file :: after)) h with ⟨answer', k'⟩
  rw [henter, henter'] at hentered
  obtain ⟨rfl, hk⟩ : answer' = answer ∧ k.Agrees k' := ⟨hentered.result, hentered.agrees⟩
  cases answer' with
  | error fault =>
    have hversion' : versionFlag ∉ before ++ fileFlag :: file :: after :=
      mt (mem_append_pair_iff hname (by decide) (by decide)).mp hversion
    rw [run_eq hversion, run_eq hversion', outcome_bind, outcome_bind, henter, henter']
    exact ⟨rfl, hk⟩
  | ok u =>
    obtain ⟨hquiet, hruns⟩ := hloads k' henter'
    exact agreeing_run_of_entered hname hcompile hversion hfile henter henter' hk hquiet hruns name

/-- A machine with a driver and a configuration that does not name it. -/
def linking : Host :=
  { configured with
    files := ⟨(["bin"], .directory) :: (["bin", "clang++"], .file [] true) :: configured.files.entries⟩ }

/-- The configuration stands in the middle of a command line that links. -/
theorem run_agrees_unconfigured_linking :
    compileFlag ∉ ["a.o"] ++ ["-o", "a.out"] ∧ versionFlag ∉ ["a.o"] ++ ["-o", "a.out"] ∧
      fileFlag ∉ ["a.o"] ++ ["-o", "a.out"] ∧ "/c" ∉ flags ∧
      Agreeing (outcome (run answering "conjunct" ["a.o", "-o", "a.out"]) linking)
        (outcome (run answering "conjunct" ["a.o", fileFlag, "/c", "-o", "a.out"]) linking) := by
  have hcompile : compileFlag ∉ ["a.o"] ++ ["-o", "a.out"] := by decide
  have hversion : versionFlag ∉ ["a.o"] ++ ["-o", "a.out"] := by decide
  have hfile : fileFlag ∉ ["a.o"] ++ ["-o", "a.out"] := by decide
  have hname : "/c" ∉ flags := by decide
  refine ⟨hcompile, hversion, hfile, hname, run_agrees_unconfigured hcompile hversion hfile hname ?_ "conjunct"⟩
  intro k henter
  have hverbose : verboseFlag ∉ ["a.o"] ++ fileFlag :: "/c" :: ["-o", "a.out"] := by decide
  cases (outcome_enter_of_unrequested (h := linking) hverbose rfl).symm.trans henter
  constructor
  · refine ⟨_, _, load_minimalText rfl rfl _ _, rfl, fun reply h₁ hquery => ?_⟩
    cases hquery
    exact .refl _
  · intro command h h' _ ha
    exact ⟨rfl, ha⟩

end Command

end BitcodeWrapper
