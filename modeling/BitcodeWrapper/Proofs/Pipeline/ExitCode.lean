import BitcodeWrapper.Proofs.Host.RealPath
import BitcodeWrapper.Proofs.Job.Chain
import BitcodeWrapper.Proofs.Pipeline.Dispatch

/-! The commands of a compile step and its exit code: the stages are a chain of commands, which is cut
short when the arguments name no object file. -/
namespace BitcodeWrapper.Pipeline
open BitcodeWrapper.Action Job

variable {runner : Runner} {c : Config} {invokedAs driver source workspace : String}
  {args : Arguments} {vs : List Event} {r : Except Fault String}

/-- Nothing is refused but launches, and these by the operating system. -/
def OnlyLaunchesRefused (es : List Event) : Prop :=
  ∀ s fault, (⟨s, .error fault⟩ : Event) ∈ es →
    ∃ command environment e, s = .launch command environment ∧ fault = .os e

theorem OnlyLaunchesRefused.mono {es es' : List Event} (h : OnlyLaunchesRefused es)
    (hsub : es' ⊆ es) : OnlyLaunchesRefused es' :=
  fun s fault hmem => h s fault (hsub hmem)

theorem OnlyLaunchesRefused.nil : OnlyLaunchesRefused [] := fun _ _ hmem => nomatch hmem

theorem OnlyLaunchesRefused.step {α : Type} {s : Step} {next : Except Fault s.Answer → Job α}
    {h h' : Host} {a : s.Answer} (ho : s.outcome runner h = (.ok a, h'))
    (hrest : OnlyLaunchesRefused (events runner (next (.ok a)) h')) :
    OnlyLaunchesRefused (events runner (.step s next) h) := by
  have hevents : events runner (.step s next) h =
      ⟨s, .ok a⟩ :: events runner (next (.ok a)) h' := by
    simp only [events, history, ho, List.map_cons]
  rw [hevents]
  intro s' fault hmem
  rcases List.mem_cons.mp hmem with heq | hmem
  · cases heq
  · exact hrest s' fault hmem

/-- A stage ends with its file if its command returned zero, and with a failure otherwise. -/
def Ends (call : Call) (path : String) (r : Except Fault String) : Prop :=
  (call.Exits 0 ∧ r = .ok path) ∨
    ∃ cause : Failure, call.FailsWith cause.exitCode ∧ r = .error (.failure cause)

/-- A stage whose command did not return zero passes its return code on. -/
theorem exitCode_of_exited {stage : String} {command : List String} {code : Int}
    {output : StageOutput} (hcode : code ≠ 0) :
    (Failure.stage ⟨stage, command, some code, output⟩).exitCode = exitCodeFor (some code) := by
  simp [Failure.exitCode, StageError.exitCode, hcode]

theorem ends_of_settled {stage path : String} {command : List String}
    {environment : Option Bindings} {answer : Except Fault Reply}
    (hanswer : ∀ fault, answer = .error fault → ∃ e, fault = .os e) :
    Ends ⟨command, environment, answer⟩ path
      ((settled stage command answer).map fun _ => path) := by
  rcases answer with fault | ⟨code, output⟩
  · obtain ⟨e, rfl⟩ := hanswer fault rfl
    exact .inr ⟨_, .refused ⟨e, rfl⟩, rfl⟩
  · by_cases hcode : code = 0
    · subst hcode
      exact .inl ⟨⟨output, rfl⟩, rfl⟩
    · refine .inr ⟨.stage ⟨stage, command, some code, .bytes output⟩, ?_, ?_⟩
      · rw [exitCode_of_exited hcode]
        exact .exited hcode ⟨output, rfl⟩
      · simp only [settled, if_neg hcode]
        rfl

theorem OnlyLaunchesRefused.answer {es : List Event} (h : OnlyLaunchesRefused es)
    {command : List String} {environment : Option Bindings} {answer : Except Fault Reply}
    (hmem : ⟨.launch command environment, answer⟩ ∈ es) :
    ∀ fault, answer = .error fault → ∃ e, fault = .os e := by
  rintro fault rfl
  obtain ⟨-, -, e, -, rfl⟩ := h _ _ hmem
  exact ⟨e, rfl⟩

theorem OnlyLaunchesRefused.not_mem_createFile {es : List Event} (h : OnlyLaunchesRefused es)
    {directory name : String} {fault : Fault} :
    ⟨.createFile directory name, .error fault⟩ ∉ es := by
  intro hmem
  obtain ⟨_, _, _, ⟨⟩, -⟩ := h _ _ hmem

/-- Stage one on a machine that makes its file: one command, launched once. -/
theorem ends_of_shows_emitBitcode (honly : OnlyLaunchesRefused vs)
    (h : Shows (emitBitcode source driver args workspace false) vs r) :
    ∃ bitcode call, files vs = [bitcode] ∧ calls vs = [call] ∧
      call.command = driver :: StageCommand.emitBitcode args bitcode ∧ Ends call bitcode r := by
  obtain ⟨fault, -, rfl, rfl⟩ | ⟨bitcode, answer, rfl, rfl⟩ := shows_emitBitcode_iff.mp h
  · exact (honly.not_mem_createFile List.mem_cons_self).elim
  · exact ⟨bitcode, _, rfl, rfl, rfl,
      ends_of_settled (honly.answer (List.mem_cons_of_mem _ List.mem_cons_self))⟩

theorem ends_of_shows_schedulePasses {bitcode : String} (honly : OnlyLaunchesRefused vs)
    (h : Shows (schedulePasses source c bitcode workspace false) vs r) :
    ∃ optimized call, files vs = [optimized] ∧ calls vs = [call] ∧
      call.command =
        c.optimizer :: StageCommand.schedulePasses c.optimizerArguments bitcode optimized ∧
      Ends call optimized r := by
  obtain ⟨fault, -, rfl, rfl⟩ | ⟨optimized, own, answer, rfl, rfl⟩ := shows_schedulePasses_iff.mp h
  · exact (honly.not_mem_createFile List.mem_cons_self).elim
  · exact ⟨optimized, _, rfl, rfl, rfl,
      ends_of_settled (honly.answer (List.mem_cons_of_mem _ List.mem_cons_self))⟩

/-- The object file that stage three is told to build. -/
def objectFile (args : Arguments) (optimized : String) : String :=
  (StageCommand.buildBitcode args optimized).valueOf StageCommand.outputFlag

theorem ends_of_shows_buildBitcode {optimized : String} (honly : OnlyLaunchesRefused vs)
    (h : Shows (buildBitcode driver optimized args false) vs r) :
    (objectFile args optimized = "" ∧ vs = [] ∧ r = .error (.failure .missingOutput)) ∨
      objectFile args optimized ≠ "" ∧ files vs = [] ∧
      ∃ call, calls vs = [call] ∧
        call.command = driver :: StageCommand.buildBitcode args optimized ∧
        Ends call (objectFile args optimized) r := by
  obtain ⟨hobject, rfl, rfl⟩ | ⟨hobject, answer, rfl, rfl⟩ := shows_buildBitcode_iff.mp h
  · exact .inl ⟨hobject, rfl, rfl⟩
  · exact .inr ⟨hobject, rfl, _, rfl, rfl, ends_of_settled (honly.answer List.mem_cons_self)⟩

/-- The commands of the three stages. -/
def commands (c : Config) (driver : String) (args : Arguments) (bitcode optimized : String) :
    List (List String) :=
  [driver :: StageCommand.emitBitcode args bitcode,
    c.optimizer :: StageCommand.schedulePasses c.optimizerArguments bitcode optimized,
    driver :: StageCommand.buildBitcode args optimized]

/-- Those that there is something to do for: without an object file there is no third stage. -/
def dueCommands (c : Config) (driver : String) (args : Arguments) (bitcode optimized : String) :
    List (List String) :=
  (driver :: StageCommand.emitBitcode args bitcode) ::
    (c.optimizer :: StageCommand.schedulePasses c.optimizerArguments bitcode optimized) ::
    if objectFile args optimized = "" then [] else [driver :: StageCommand.buildBitcode args optimized]

/-- The exit code when all of these have returned zero. -/
def dueCode (args : Arguments) (optimized : String) : Int :=
  if objectFile args optimized = "" then internalExitCode else 0

/-- The exit code that the result of a compile step is reported as. -/
def compileCode : Except Fault String → Except Fault Int
  | .ok _ => .ok 0
  | .error (.failure cause) => .ok cause.exitCode
  | .error fault => .error fault

/-- Stage three is the end of the chain: its command, or without an object file none. -/
theorem chain_of_shows_buildBitcode {optimized : String} (honly : OnlyLaunchesRefused vs)
    (h : Shows (buildBitcode driver optimized args false) vs r) :
    ∃ code, compileCode r = .ok code ∧ files vs = [] ∧
      Chain (dueCode args optimized)
        (if objectFile args optimized = "" then []
          else [driver :: StageCommand.buildBitcode args optimized]) (calls vs) code := by
  obtain ⟨hobject, rfl, rfl⟩ | ⟨hobject, hfiles, call, hcalls, hcommand, hends⟩ :=
    ends_of_shows_buildBitcode honly h
  · refine ⟨_, rfl, rfl, ?_⟩
    rw [dueCode, if_pos hobject, if_pos hobject]
    exact .ended
  · rw [dueCode, if_neg hobject, if_neg hobject, hcalls, ← hcommand]
    obtain ⟨exits, rfl⟩ | ⟨cause, fails, rfl⟩ := hends
    · exact ⟨0, rfl, hfiles, .next exits .ended⟩
    · exact ⟨_, rfl, hfiles, .stopped fails⟩

/-- The stages of a real run are a chain of the commands that are due. -/
theorem chain_of_shows_stages (hreal : c.isDryRun = false) (honly : OnlyLaunchesRefused vs)
    (h : Shows (stages c driver source args workspace) vs r) :
    ∃ bitcode optimized code, compileCode r = .ok code ∧ files vs <+: [bitcode, optimized] ∧
      Chain (dueCode args optimized) (dueCommands c driver args bitcode optimized) (calls vs)
        code := by
  simp only [stages, hreal, Bool.false_eq_true, ↓reduceIte, bind_pure] at h
  obtain ⟨fault, h₁, rfl⟩ | ⟨bitcode, vs₁, vs', rfl, h₁, h'⟩ := shows_bind_iff.mp h
  · obtain ⟨bitcode, call, hfiles, hcalls, hcommand, ⟨-, ⟨⟩⟩ | ⟨cause, fails, ⟨⟩⟩⟩ :=
      ends_of_shows_emitBitcode honly h₁
    refine ⟨bitcode, "", _, rfl, ?_, ?_⟩
    · exact ⟨[""], by rw [hfiles]; rfl⟩
    · rw [hcalls, dueCommands, ← hcommand]
      exact .stopped fails
  obtain ⟨_, first, hfiles₁, hcalls₁, hfirst, ⟨exits₁, ⟨⟩⟩ | ⟨-, -, ⟨⟩⟩⟩ :=
    ends_of_shows_emitBitcode (honly.mono (List.subset_append_left vs₁ vs')) h₁
  replace honly := honly.mono (List.subset_append_right vs₁ vs')
  obtain ⟨fault, h₂, rfl⟩ | ⟨optimized, vs₂, vs₃, rfl, h₂, h₃⟩ := shows_bind_iff.mp h'
  · obtain ⟨optimized, second, hfiles₂, hcalls₂, hsecond, ⟨-, ⟨⟩⟩ | ⟨cause, fails, ⟨⟩⟩⟩ :=
      ends_of_shows_schedulePasses honly h₂
    refine ⟨bitcode, optimized, _, rfl, ?_, ?_⟩
    · rw [files_append, hfiles₁, hfiles₂]
      exact List.prefix_rfl
    · rw [calls_append, hcalls₁, hcalls₂, dueCommands, ← hfirst, ← hsecond]
      exact .next exits₁ (.stopped fails)
  obtain ⟨_, second, hfiles₂, hcalls₂, hsecond, ⟨exits₂, ⟨⟩⟩ | ⟨-, -, ⟨⟩⟩⟩ :=
    ends_of_shows_schedulePasses (honly.mono (List.subset_append_left vs₂ vs₃)) h₂
  obtain ⟨code, hcode, hfiles₃, hchain⟩ :=
    chain_of_shows_buildBitcode (honly.mono (List.subset_append_right vs₂ vs₃)) h₃
  refine ⟨bitcode, optimized, code, hcode, ?_, ?_⟩
  · rw [files_append, files_append, hfiles₁, hfiles₂, hfiles₃]
    exact List.prefix_rfl
  · rw [calls_append, calls_append, hcalls₁, hcalls₂, dueCommands, ← hfirst, ← hsecond]
    exact .next exits₁ (.next exits₂ hchain)

theorem chain_of_shows_compile (hreal : c.isDryRun = false) (honly : OnlyLaunchesRefused vs)
    (h : Shows (compile c driver args) vs r) :
    ∃ bitcode optimized code, compileCode r = .ok code ∧ files vs <+: [bitcode, optimized] ∧
      Chain (dueCode args optimized) (dueCommands c driver args bitcode optimized) (calls vs)
        code := by
  obtain ⟨fault, -, rfl, rfl⟩ | ⟨path, vs', hstages, rfl⟩ := shows_compile_iff.mp h
  · obtain ⟨_, _, _, ⟨⟩, -⟩ := honly _ _ List.mem_cons_self
  · have hsub : vs' ⊆ ⟨.makeWorkspace, .ok path⟩ ::
        (vs' ++ [⟨.releaseWorkspace c.retainsWorkspace path, .ok ()⟩]) :=
      fun _ hmem => List.mem_cons_of_mem _ (List.mem_append_left _ hmem)
    rw [calls_aroundWorkspace, files_aroundWorkspace]
    exact chain_of_shows_stages hreal (honly.mono hsub) hstages

/-- How the calls of a compile step and its exit code go with its commands and its object file. -/
structure StagesRun (commands : List (List String)) (object : String) (calls : List Call)
    (code : Int) : Prop where
  inOrder : calls.map (·.command) <+: commands
  first : 0 < calls.length
  second : 1 < calls.length ↔ ReturnsZero calls 0
  third : 2 < calls.length ↔ ReturnsZero calls 0 ∧ ReturnsZero calls 1 ∧ object ≠ ""
  succeeds : code = 0 ↔ calls.length = 3 ∧ ∀ call ∈ calls, call.Exits 0
  exited : ∀ call ∈ calls, ∀ rc ≠ 0, call.Exits rc →
    code = exitCodeFor (some rc) ∧ code ≠ 0 ∧ ∀ n > 0, rc = -n → code = 128 + n
  refused : ∀ call ∈ calls, call.IsRefused → code = 1
  unnamed : calls.length = 2 → (∀ call ∈ calls, call.Exits 0) → code = 1
  /-- Nothing else makes a run fail. -/
  failed : code ≠ 0 →
    (∃ call, calls.getLast? = some call ∧ (call.IsRefused ∨ ∃ rc ≠ 0, call.Exits rc)) ∨
      calls.length = 2 ∧ (∀ call ∈ calls, call.Exits 0) ∧ object = ""

theorem isPrefix_dueCommands (c : Config) (driver : String) (args : Arguments)
    (bitcode optimized : String) :
    dueCommands c driver args bitcode optimized <+: commands c driver args bitcode optimized := by
  simp only [dueCommands, commands, List.cons_prefix_cons, true_and]
  split
  · exact List.nil_prefix
  · exact List.prefix_rfl

theorem length_dueCommands (c : Config) (driver : String) (args : Arguments)
    (bitcode optimized : String) :
    (dueCommands c driver args bitcode optimized).length =
      if objectFile args optimized = "" then 2 else 3 := by
  simp only [dueCommands, List.length_cons]
  split <;> rfl

theorem forall_lt_two_iff {P : Nat → Prop} : (∀ j < 2, P j) ↔ P 0 ∧ P 1 := by
  constructor
  · exact fun h => ⟨h 0 (by decide), h 1 (by decide)⟩
  · rintro ⟨h₀, h₁⟩ j hj
    match j with
    | 0 => exact h₀
    | 1 => exact h₁
    | j + 2 => omega

theorem stagesRun_of_chain {bitcode optimized : String} {cs : List Call} {code : Int}
    (h : Chain (dueCode args optimized) (dueCommands c driver args bitcode optimized) cs code) :
    StagesRun (commands c driver args bitcode optimized) (objectFile args optimized) cs code where
  inOrder := h.isPrefix_commands.trans (isPrefix_dueCommands c driver args bitcode optimized)
  first := by
    rw [h.lt_length_iff, length_dueCommands]
    exact ⟨by split <;> omega, nofun⟩
  second := by
    rw [h.lt_length_iff, length_dueCommands]
    have hdue : 1 < if objectFile args optimized = "" then 2 else 3 := by split <;> omega
    simp [hdue]
  third := by
    rw [h.lt_length_iff, length_dueCommands, forall_lt_two_iff]
    by_cases hobject : objectFile args optimized = ""
    · rw [if_pos hobject]
      exact iff_of_false (fun hdue => absurd hdue.1 (by decide)) fun hthird => hthird.2.2 hobject
    · rw [if_neg hobject]
      exact ⟨fun hdue => ⟨hdue.2.1, hdue.2.2, hobject⟩,
        fun hthird => ⟨by decide, hthird.1, hthird.2.1⟩⟩
  succeeds := by
    obtain ⟨call, hlast, fails⟩ | ⟨hlength, hall, hcode⟩ := h.fails_or_ends
    · refine iff_of_false fails.ne_zero ?_
      rintro ⟨-, hall⟩
      exact (hall call (List.mem_of_getLast? hlast)).not_failsWith fails
    · rw [length_dueCommands] at hlength
      rw [hcode, hlength, dueCode]
      by_cases hobject : objectFile args optimized = ""
      · simp [hobject, internalExitCode]
      · simp only [hobject, ↓reduceIte, true_and]
        exact iff_of_true trivial hall
  exited := by
    intro call hmem rc nonzero hexits
    have hcode := h.code_eq hmem (.exited nonzero hexits)
    refine ⟨hcode, hcode ▸ exitCodeFor_ne_zero nonzero, ?_⟩
    rintro n hn rfl
    rw [hcode, exitCodeFor_of_signal hn]
  refused := fun call hmem hrefused => h.code_eq hmem (.refused hrefused)
  unnamed := by
    intro hlength hall
    obtain ⟨call, hlast, fails⟩ | ⟨hdue, -, hcode⟩ := h.fails_or_ends
    · exact ((hall call (List.mem_of_getLast? hlast)).not_failsWith fails).elim
    · rw [hlength, length_dueCommands] at hdue
      rw [hcode, dueCode]
      split at hdue
      · rw [if_pos ‹_›]
        rfl
      · omega
  failed := by
    intro nonzero
    obtain ⟨call, hlast, fails⟩ | ⟨hlength, hall, hcode⟩ := h.fails_or_ends
    · refine .inl ⟨call, hlast, ?_⟩
      rcases fails with hrefused | ⟨hrc, hexits⟩
      · exact .inl hrefused
      · exact .inr ⟨_, hrc, hexits⟩
    · by_cases hobject : objectFile args optimized = ""
      · rw [length_dueCommands, if_pos hobject] at hlength
        exact .inr ⟨hlength, hall, hobject⟩
      · rw [dueCode, if_neg hobject] at hcode
        exact (nonzero hcode).elim

theorem fst_reported_map (r : Except Fault String) (h : Host) :
    (reported (r.map fun _ => 0, h)).1 = compileCode r := by
  rcases r with (cause | _ | _ | _ | _) | object <;> rfl

/-- A compile step launches the commands of its stages in order, each at most once and only as long as
all before it returned zero, and its exit code is that of the first that fails. -/
theorem dispatch_runs_stages {h h₁ : Host} (hcompile : args.has SourceFile.compileFlag = true)
    (hreal : c.isDryRun = false)
    (hlocated : outcome (locateDriver c invokedAs args) h = (.ok driver, h₁))
    (honly : OnlyLaunchesRefused ((work c driver args).events runner h₁)) :
    ∃ bitcode optimized code,
      (outcome (dispatch runner c invokedAs args) h).1 = .ok code ∧
      (outcome (dispatch runner c invokedAs args) h).2.launches.map (·.command) =
        h.launches.map (·.command) ++
          (calls ((work c driver args).events runner h₁)).map (·.command) ∧
      files ((work c driver args).events runner h₁) <+: [bitcode, optimized] ∧
      StagesRun (commands c driver args bitcode optimized) (objectFile args optimized)
        (calls ((work c driver args).events runner h₁)) code := by
  have hshows := (follows_events runner (work c driver args) h₁).shows
  obtain ⟨r, hcompiled, hresult⟩ := (shows_work_iff_of_compile hcompile).mp hshows
  obtain ⟨bitcode, optimized, code, hcode, hfiles, hchain⟩ :=
    chain_of_shows_compile hreal (honly.mono List.filter_sublist.subset) hcompiled
  rw [files_visible] at hfiles
  rw [calls_visible] at hchain
  have hreported := @outcome_dispatch_of_located runner c invokedAs args h h₁ driver hlocated
  refine ⟨bitcode, optimized, code, ?_, ?_, hfiles, stagesRun_of_chain hchain⟩
  · rw [hreported, ← Prod.eta (outcome ((work c driver args).run runner) h₁), hresult,
      fst_reported_map, hcode]
  · have hlocate := recordsTo_of_locateDriver c invokedAs args h
    rw [hlocated] at hlocate
    rw [hreported, (recordsTo_reported _).launches_eq, (passes_history runner (work c driver args) h₁).launches_eq,
      hlocate.launches_eq]
    rfl

theorem outcome_locateDriver_oneDriver {isDryRun : Bool} {args : Arguments} :
    outcome (locateDriver { oneDriverConfig with isDryRun := isDryRun } "conjunct" args) oneDriver =
      (.ok "/bin/clang", oneDriver) := by
  have hgiven : oneDriverConfig.driver.filter (· != "") = some "/bin/clang" := rfl
  have hfile : oneDriver.isDirectory "/bin/clang" = false := by
    have hfind : oneDriver.files.find [] true "/bin/clang" =
        .ok ⟨["bin", "clang"], some (.file [] true)⟩ :=
      Files.find_of_directories (by decide +kernel) (by decide) (by decide) (by decide) (by decide)
        rfl nofun
    exact Files.isDirectory_of_find (by decide +kernel) hfind
  have haside : oneDriver.pathExists ("/bin/clang" ++ Compiler.asideSuffix) = false := by
    have happend : "/bin/clang" ++ Compiler.asideSuffix = "/bin/clang.original" := by decide +kernel
    have hfind : oneDriver.files.find [] true "/bin/clang.original" =
        .ok ⟨["bin", "clang.original"], none⟩ :=
      Files.find_of_directories (by decide +kernel) (by decide) (by decide) (by decide) (by decide)
        rfl nofun
    rw [happend]
    exact Files.pathExists_of_find (by decide +kernel) hfind
  simp only [locateDriver, Compiler.locate, hgiven, Action.isDirectory, outcome_bind, outcome_get,
    outcome_pure, hfile, Bool.false_eq_true, ↓reduceIte, Compiler.preferAside, Action.pathExists,
    haside]

/-- The files once the workspace is made. -/
def workspaceMade : Files := oneDriver.files.put ["tmp", "conjunct00000001"] .directory

/-- The files once the first file is made in it. -/
def bitcodeMade : Files := workspaceMade.put ["tmp", "conjunct00000001", "a.c.bc"] (.file [] false)

theorem names_workspace : Path.names "/tmp/conjunct00000001" = ["", "tmp", "conjunct00000001"] := by
  decide +kernel

theorem outcome_makeWorkspace_oneDriver {h : Host} (hr : Host.RecordsTo oneDriver h) :
    ∃ h', Step.makeWorkspace.outcome runner h = (.ok "/tmp/conjunct00000001", h') ∧
      h'.files = workspaceMade ∧ h'.here = [] := by
  obtain ⟨hhere, htemporary, hattempts, hlogging⟩ := hr.machine_eq
  have hfiles := hr.files_eq rfl
  have hpath : Workspace.pathOf h (h.attempts + 1) = "/tmp/conjunct00000001" := by
    rw [Workspace.pathOf, htemporary, hattempts]
    decide +kernel
  have hfree : h.files.find h.here false (Workspace.pathOf h (h.attempts + 1)) =
      .ok ⟨["tmp", "conjunct00000001"], none⟩ := by
    rw [hpath, hfiles]
    exact Files.find_of_directories names_workspace (by decide) (by decide) (by decide) (by decide)
      rfl nofun
  refine ⟨_, (Workspace.outcome_make_of_free hfree).trans (by rw [hpath]), ?_, ?_⟩
  · refine (Host.files_accept_of_copyTo _ _ ?_).trans ?_
    · rw [hlogging]
      rfl
    · rw [hfiles]
      rfl
  · rw [Host.here_accept]
    exact hhere

theorem names_bitcode : Path.names "/tmp/conjunct00000001/a.c.bc" =
    ["", "tmp", "conjunct00000001", "a.c.bc"] := by
  decide +kernel

theorem openForWriting_bitcode :
    workspaceMade.openForWriting [] false "/tmp/conjunct00000001/a.c.bc" =
      .ok (bitcodeMade, ["tmp", "conjunct00000001", "a.c.bc"]) := by
  have hslash : "/tmp/conjunct00000001/a.c.bc".toList.getLast? ≠ some Path.slash := by
    decide +kernel
  have hfind : workspaceMade.find [] true "/tmp/conjunct00000001/a.c.bc" =
      .ok ⟨["tmp", "conjunct00000001", "a.c.bc"], none⟩ :=
    Files.find_of_directories names_bitcode (by decide) (by decide) (by decide) (by decide)
      rfl nofun
  simp only [Files.openForWriting, if_neg hslash, hfind]
  rfl

theorem expandPath_bitcode {h : Host} (hfiles : h.files = bitcodeMade) (hhere : h.here = []) :
    h.expandPath "/tmp/conjunct00000001/a.c.bc" true = .ok "/tmp/conjunct00000001/a.c.bc" := by
  have htext : h.expandText "/tmp/conjunct00000001/a.c.bc" = "/tmp/conjunct00000001/a.c.bc" := by
    have hhome : Path.expandHome h.homes "/tmp/conjunct00000001/a.c.bc" =
        "/tmp/conjunct00000001/a.c.bc" := rfl
    rw [Host.expandText, hhome, Path.expandVariables,
      Path.expandVariablesIn_eq_self h.environment (by decide +kernel), String.ofList_toList]
  have hnul : ((true && Files.hasNul "/tmp/conjunct00000001/a.c.bc") ||
      Path.namesAccountWithNul "/tmp/conjunct00000001/a.c.bc") = false := by decide +kernel
  have hreal : bitcodeMade.realPath [] "/tmp/conjunct00000001/a.c.bc" =
      "/tmp/conjunct00000001/a.c.bc" := by
    have hlinks : bitcodeMade.HasNoLinks :=
      Files.hasNoLinks_of_entries (by decide +kernel)
    rw [Files.realPath_of_hasNoLinks hlinks (by decide +kernel) (by decide +kernel), names_bitcode]
    decide +kernel
  have hparent : Path.directory "/tmp/conjunct00000001/a.c.bc" = "/tmp/conjunct00000001" := by
    decide +kernel
  have hfind : bitcodeMade.find [] true "/tmp/conjunct00000001" =
      .ok ⟨["tmp", "conjunct00000001"], some .directory⟩ :=
    Files.find_of_directories names_workspace (by decide) (by decide) (by decide) (by decide)
      rfl nofun
  have hdirectory : h.isDirectory "/tmp/conjunct00000001" = true := by
    have hplain : Files.hasNul "/tmp/conjunct00000001" = false := by decide +kernel
    rw [Host.isDirectory, hfiles, hhere]
    exact Files.isDirectory_of_find hplain hfind
  simp only [Host.expandPath, htext, hnul, Bool.false_eq_true, ↓reduceIte, hfiles, hhere, hreal,
    hparent, hdirectory]

theorem outcome_createFile_oneDriver {h : Host} (hfiles : h.files = workspaceMade)
    (hhere : h.here = []) :
    ∃ h', (Step.createFile "/tmp/conjunct00000001" "a.c.bc").outcome runner h =
      (.ok "/tmp/conjunct00000001/a.c.bc", h') := by
  have hjoin : Path.join "/tmp/conjunct00000001" "a.c.bc" = "/tmp/conjunct00000001/a.c.bc" := by
    decide +kernel
  have hnul : Files.hasNul "/tmp/conjunct00000001/a.c.bc" = false := by decide +kernel
  have hopened : h.files.openForWriting h.here false "/tmp/conjunct00000001/a.c.bc" =
      .ok (bitcodeMade, ["tmp", "conjunct00000001", "a.c.bc"]) := by
    rw [hfiles, hhere]
    exact openForWriting_bitcode
  have hwhole : ({ h with files := bitcodeMade } : Host).expandPath
      "/tmp/conjunct00000001/a.c.bc" true = .ok "/tmp/conjunct00000001/a.c.bc" :=
    expandPath_bitcode rfl hhere
  rw [← hjoin] at hnul hopened
  have hout : outcome (Workspace.createFile "/tmp/conjunct00000001" "a.c.bc") h =
      (.ok "/tmp/conjunct00000001/a.c.bc", { h with files := bitcodeMade }) :=
    Workspace.outcome_createFile_of_opened hnul hopened (by rw [hjoin]; exact hwhole)
  exact ⟨_, hout⟩

theorem onlyLaunchesRefused_aborting : OnlyLaunchesRefused
    ((work oneDriverConfig "/bin/clang" simpleArguments).events aborting oneDriver) := by
  refine .step rfl ?_
  refine .step rfl ?_
  obtain ⟨h, hmake, hfiles, hhere⟩ := @outcome_makeWorkspace_oneDriver aborting _
    ((Host.RecordsTo.single oneDriver _).accept _)
  refine .step hmake ?_
  obtain ⟨h', hcreate⟩ := @outcome_createFile_oneDriver aborting h hfiles hhere
  refine .step hcreate ?_
  refine .step rfl ?_
  refine .step rfl ?_
  refine .step rfl ?_
  refine .step rfl ?_
  exact .nil

/-- The hypotheses hold of a driver that is killed at once. -/
theorem dispatch_runs_stages_aborting :
    simpleArguments.has SourceFile.compileFlag = true ∧ oneDriverConfig.isDryRun = false ∧
      ∃ bitcode optimized code,
        (outcome (dispatch aborting oneDriverConfig "conjunct" simpleArguments) oneDriver).1 =
          .ok code ∧
        StagesRun (commands oneDriverConfig "/bin/clang" simpleArguments bitcode optimized)
          (objectFile simpleArguments optimized)
          (calls ((work oneDriverConfig "/bin/clang" simpleArguments).events aborting oneDriver))
          code := by
  obtain ⟨bitcode, optimized, code, hcode, -, -, hrun⟩ :=
    @dispatch_runs_stages aborting oneDriverConfig "conjunct" "/bin/clang" simpleArguments
      oneDriver oneDriver rfl rfl outcome_locateDriver_oneDriver onlyLaunchesRefused_aborting
  exact ⟨rfl, rfl, bitcode, optimized, code, hcode, hrun⟩

end BitcodeWrapper.Pipeline
