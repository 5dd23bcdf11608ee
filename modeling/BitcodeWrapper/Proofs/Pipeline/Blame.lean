import BitcodeWrapper.Proofs.Job.Errors
import BitcodeWrapper.Proofs.Pipeline.Modes

/-! What a compile step that fails is put down to. One record at its end tells of it: of a stage it gives
the name, the return code and all that its command printed, and of any other failure its message. -/
namespace BitcodeWrapper.Pipeline
open BitcodeWrapper.Action Job

variable {α β : Type} {runner : Runner} {c : Config} {invokedAs driver source path stage text : String}
  {args : Arguments} {isDryRun : Bool} {es es' vs : List Event} {names names' : List String}
  {cs cs' : List Call} {cause : Failure} {h h₁ : Host}

/-- The faults of a compile step that no command is to blame for. -/
inductive Unlaunched (es : List Event) : Fault → Prop
  | workspace {s : Step} {cause : WorkspaceError}
      (mem : ⟨s, .error (.failure (.workspace cause))⟩ ∈ es) :
      Unlaunched es (.failure (.workspace cause))
  | missingOutput : Unlaunched es (.failure .missingOutput)
  | invalidValue {directory name : String}
      (mem : ⟨.createFile directory name, .error .invalidValue⟩ ∈ es) : Unlaunched es .invalidValue

theorem Unlaunched.mono {fault : Fault} (h : Unlaunched es fault) (hsub : es ⊆ es') :
    Unlaunched es' fault := by
  cases h with
  | workspace mem => exact .workspace (hsub mem)
  | missingOutput => exact .missingOutput
  | invalidValue mem => exact .invalidValue (hsub mem)

/-- Stages of these names launch one command each, in turn. One that fails is the last, and what it makes
of its answer is the result. -/
inductive Staged {α : Type} (es : List Event) : List String → List Call → Except Fault α → Prop
  | ended (a : α) : Staged es [] [] (.ok a)
  | unlaunched {names : List String} {fault : Fault} (h : Unlaunched es fault) :
      Staged es names [] (.error fault)
  | stopped {stage : String} {names : List String} {call : Call} {fault : Fault}
      (fails : settled stage call.command call.answer = .error fault) :
      Staged es (stage :: names) [call] (.error fault)
  | next {stage : String} {names : List String} {call : Call} {cs : List Call} {output : Bytes}
      {r : Except Fault α} (succeeds : settled stage call.command call.answer = .ok output)
      (rest : Staged es names cs r) : Staged es (stage :: names) (call :: cs) r

namespace Staged

theorem mono {r : Except Fault α} (h : Staged es names cs r) (hsub : es ⊆ es') :
    Staged es' names cs r := by
  induction h with
  | ended a => exact .ended a
  | unlaunched h => exact .unlaunched (h.mono hsub)
  | stopped fails => exact .stopped fails
  | next succeeds rest ih => exact .next succeeds ih

theorem append {a : α} {r : Except Fault β} (h : Staged es names cs (.ok a))
    (h' : Staged es names' cs' r) : Staged es (names ++ names') (cs ++ cs') r := by
  generalize hr : Except.ok a = r₀ at h
  induction h with
  | ended a => exact h'
  | unlaunched h => exact nomatch hr
  | stopped fails => exact nomatch hr
  | next succeeds rest ih => exact .next succeeds (ih hr)

/-- Stages that come after a fault are never reached. -/
theorem append_error {fault : Fault} (h : Staged (α := α) es names cs (.error fault)) :
    Staged (α := β) es (names ++ names') cs (.error fault) := by
  generalize hr : Except.error fault = r₀ at h
  induction h with
  | ended a => exact nomatch hr
  | unlaunched h =>
    cases hr
    exact .unlaunched h
  | stopped fails =>
    cases hr
    exact .stopped fails
  | next succeeds rest ih => exact .next succeeds (ih hr)

end Staged

theorem staged_of_shows_bind {x : Job α} {f : α → Job β} {r : Except Fault β}
    (hx : ∀ vs r, Shows x vs r → Staged vs names (calls vs) r)
    (hf : ∀ a vs r, Shows (f a) vs r → Staged vs names' (calls vs) r) (h : Shows (x >>= f) vs r) :
    Staged vs (names ++ names') (calls vs) r := by
  obtain ⟨fault, hfirst, rfl⟩ | ⟨a, vs₁, vs₂, rfl, hfirst, hrest⟩ := shows_bind_iff.mp h
  · exact (hx _ _ hfirst).append_error
  · rw [calls_append]
    exact ((hx _ _ hfirst).mono (List.subset_append_left _ _)).append
      ((hf a _ _ hrest).mono (List.subset_append_right _ _))

/-- The stage of these events, unless they launch nothing. -/
def launched (isDryRun : Bool) (stage : String) : List String := if isDryRun then [] else [stage]

theorem staged_stage (isDryRun : Bool) (stage : String) (command : List String)
    (environment : Option Bindings) (answer : Except Fault Reply) (g : Bytes → α) :
    Staged es (launched isDryRun stage)
      (calls (stageEvents isDryRun command environment answer))
      ((stageResult isDryRun stage command answer).map g) := by
  cases isDryRun with
  | true => exact .ended (g [])
  | false =>
    change Staged es [stage] [⟨command, environment, answer⟩] ((settled stage command answer).map g)
    rcases hsettled : settled stage command answer with fault | output
    · exact .stopped hsettled
    · exact .next hsettled (.ended (g output))

/-- A file that cannot be made is no fault of a command. -/
theorem staged_of_canFail {directory name : String} {fault : Fault}
    (hfault : (Step.createFile directory name).CanFail fault) :
    Staged (α := α) [⟨.createFile directory name, .error fault⟩] names [] (.error fault) := by
  obtain ⟨cause, rfl⟩ | rfl := hfault
  · exact .unlaunched (.workspace List.mem_cons_self)
  · exact .unlaunched (.invalidValue List.mem_cons_self)

theorem staged_of_shows_emitBitcode {r : Except Fault String}
    (h : Shows (emitBitcode source driver args path isDryRun) vs r) :
    Staged vs (launched isDryRun "emitting bitcode") (calls vs) r := by
  obtain ⟨fault, hfault, rfl, rfl⟩ | ⟨bitcode, answer, rfl, rfl⟩ := shows_emitBitcode_iff.mp h
  · exact staged_of_canFail hfault
  · exact staged_stage _ _ _ _ _ _

theorem staged_of_shows_schedulePasses {bitcode : String} {r : Except Fault String}
    (h : Shows (schedulePasses source c bitcode path isDryRun) vs r) :
    Staged vs (launched isDryRun "running opt") (calls vs) r := by
  obtain ⟨fault, hfault, rfl, rfl⟩ | ⟨optimized, own, answer, rfl, rfl⟩ :=
    shows_schedulePasses_iff.mp h
  · exact staged_of_canFail hfault
  · exact staged_stage _ _ _ _ _ _

theorem staged_of_shows_buildBitcode {optimized : String} {r : Except Fault String}
    (h : Shows (buildBitcode driver optimized args isDryRun) vs r) :
    Staged vs (launched isDryRun "building bitcode") (calls vs) r := by
  obtain ⟨-, rfl, rfl⟩ | ⟨-, answer, rfl, rfl⟩ := shows_buildBitcode_iff.mp h
  · exact .unlaunched .missingOutput
  · exact staged_stage _ _ _ _ _ _

/-- The launch that ends a dry run. -/
theorem staged_of_shows_original {object : String} {r : Except Fault String}
    (h : Shows (Job.debug "Running original clang during dry-run..." >>= fun _ =>
      runStage originalStage (driver :: args) false none >>= fun _ => pure object) vs r) :
    Staged vs [originalStage] (calls vs) r := by
  obtain ⟨_, hrun, rfl⟩ := (shows_bind_quiet_iff (g := fun _ => object)
    fun _ _ _ => shows_pure_iff).mp (shows_log_bind_iff.mp h)
  obtain ⟨answer, rfl, rfl⟩ := shows_runStage_iff.mp hrun
  exact staged_stage false originalStage _ none answer _

/-- The stages that launch a command: all of them, or in a dry run only the one at the end. -/
def launchedStages (isDryRun : Bool) : List String := if isDryRun then [originalStage] else stageNames

theorem staged_of_shows_stages {r : Except Fault String}
    (h : Shows (stages c driver source args path) vs r) :
    Staged vs (launchedStages c.isDryRun) (calls vs) r := by
  have hown : ∀ vs r, Shows (ownStages c driver source args path) vs r → Staged vs
      (launched c.isDryRun "emitting bitcode" ++ (launched c.isDryRun "running opt" ++
        launched c.isDryRun "building bitcode")) (calls vs) r := by
    intro vs r
    apply staged_of_shows_bind (fun _ _ => staged_of_shows_emitBitcode)
    intro bitcode vs r
    apply staged_of_shows_bind (fun _ _ => staged_of_shows_schedulePasses)
    intro optimized vs r
    exact staged_of_shows_buildBitcode
  rw [stages_eq] at h
  cases hdry : c.isDryRun with
  | false =>
    simp only [hdry, Bool.false_eq_true, ↓reduceIte, bind_pure] at h hown
    exact hown vs r h
  | true =>
    simp only [hdry, ↓reduceIte] at h hown
    exact staged_of_shows_bind hown (fun object _ _ => staged_of_shows_original) h

/-- A compile step launches what its stages launch, and its workspace is no fault of theirs. -/
theorem staged_of_shows_compile {r : Except Fault String} (h : Shows (compile c driver args) vs r) :
    Staged vs (launchedStages c.isDryRun) (calls vs) r := by
  obtain ⟨fault, ⟨cause, rfl⟩, rfl, rfl⟩ | ⟨path, vs, hstages, rfl⟩ := shows_compile_iff.mp h
  · exact .unlaunched (.workspace List.mem_cons_self)
  · rw [calls_cons, calls_append]
    change Staged _ _ (calls vs ++ []) r
    rw [List.append_nil]
    refine (staged_of_shows_stages hstages).mono fun e he => ?_
    exact List.mem_cons_of_mem _ (List.mem_append_left _ he)

/-- What the record of a failed stage says. It gives the name of the stage, the return code, if there is
one, and all that its command printed; the command is the last that was launched. -/
inductive Blames (names : List String) (cs : List Call) : Failure → String → Prop
  | exited {stage : String} (earlier : List Call) {command : List String}
      {environment : Option Bindings} {code : Int} {output : Bytes}
      (last : cs = earlier ++ [⟨command, environment, .ok ⟨code, output⟩⟩]) (nonzero : code ≠ 0)
      (named : names[earlier.length]? = some stage) :
      Blames names cs (.stage ⟨stage, command, some code, .bytes output⟩)
        (stage ++ " failed (" ++ toString code ++ "):\n" ++ Text.Utf8.decodeLossy output)
  | refused {stage : String} (earlier : List Call) {command : List String}
      {environment : Option Bindings} {e : OsError}
      (last : cs = earlier ++ [⟨command, environment, .error (.os e)⟩])
      (named : names[earlier.length]? = some stage) :
      Blames names cs (.stage ⟨stage, command, none, .bytes (Text.Utf8.encode e.message)⟩)
        (stage ++ " failed (None):\n" ++ Text.Utf8.decodeLossy (Text.Utf8.encode e.message))

/-- One more stage before those that are told of. -/
theorem Blames.cons (h : Blames names cs cause text) (stage : String) (call : Call) :
    Blames (stage :: names) (call :: cs) cause text := by
  cases h with
  | exited earlier last nonzero named =>
    exact .exited (call :: earlier) (by rw [last]; rfl) nonzero named
  | refused earlier last named => exact .refused (call :: earlier) (by rw [last]; rfl) named

namespace Explains

end Explains

/-- No step was refused. -/
def AllAnswered (es : List Event) : Prop := ∀ s fault, (⟨s, .error fault⟩ : Event) ∉ es

namespace AllAnswered

theorem nil : AllAnswered [] := fun _ _ hmem => nomatch hmem

theorem cons {s : Step} {a : s.Answer} (h : AllAnswered es) : AllAnswered (⟨s, .ok a⟩ :: es) := by
  intro s' fault hmem
  rcases List.mem_cons.mp hmem with heq | hmem
  · cases heq
  · exact h s' fault hmem

theorem append (h : AllAnswered es) (h' : AllAnswered es') : AllAnswered (es ++ es') :=
  fun s fault hmem => (List.mem_append.mp hmem).elim (h s fault) (h' s fault)

end AllAnswered

end BitcodeWrapper.Pipeline
