import BitcodeWrapper.Proofs.Job.Paired
import BitcodeWrapper.Proofs.Pipeline.ExitCode

/-! What is set for the optimizer reaches the optimizer only. Two compile steps that differ in nothing else
launch the same commands but for the second, and come to the same end. -/
namespace BitcodeWrapper

namespace Bindings
variable {b before after extra : Bindings} {key value : String}

theorem get?_update_of_notMem (hkey : key ∉ extra.map Prod.fst) : (b.update extra).get? key = b.get? key := by
  induction extra generalizing b with
  | nil => rfl
  | cons e rest ih =>
    rw [List.map_cons, List.mem_cons, not_or] at hkey
    have hstep : b.update (e :: rest) = (b.set e.1 e.2).update rest := rfl
    rw [hstep, ih hkey.2, get?_set, if_neg hkey.1]

/-- The last text that is given for a name is bound to it. -/
theorem get?_update_of_last (hlast : key ∉ after.map Prod.fst) :
    (b.update (before ++ (key, value) :: after)).get? key = some value := by
  have happend : b.update (before ++ (key, value) :: after) =
      ((b.update before).set key value).update after := List.foldl_append
  rw [happend, get?_update_of_notMem hlast, get?_set, if_pos rfl]

end Bindings

namespace Pipeline
open BitcodeWrapper.Action Job

variable {c c' : Config} {driver source path stage : String} {args : Arguments} {n : Nat}
  {own : Bindings}

/-- An environment with names bound anew: the last text given for a name counts, and all other names are
as they were. -/
structure Overlays (own extra env : Bindings) : Prop where
  given : ∀ before key value after, extra = before ++ (key, value) :: after →
    key ∉ after.map Prod.fst → env.get? key = some value
  inherited : ∀ key ∉ extra.map Prod.fst, env.get? key = own.get? key

theorem overlays_optimizerEnvironment (own : Bindings) (c : Config) :
    Overlays own c.optimizerEnvironment (optimizerEnvironment own c) := by
  constructor
  · intro before key value after hextra hlast
    rw [optimizerEnvironment, hextra]
    exact Bindings.get?_update_of_last hlast
  · intro key hkey
    exact Bindings.get?_update_of_notMem hkey

/-- The second launches may differ, each in the environment of its own configuration. All others ask for the
same and have no environment of their own. -/
def Asks (own : Bindings) (c c' : Config) (n : Nat) (asked asked' : Request) : Prop :=
  if n = 1 then asked.2 = some (optimizerEnvironment own c) ∧ asked'.2 = some (optimizerEnvironment own c')
  else asked' = asked ∧ asked.2 = none

theorem paired_settle {R : Nat → Request → Request → Prop} {command command' : List String}
    {answer answer' : Except Fault Reply} (hanswer : SameReply answer answer') :
    Paired own R (fun m _ _ => m = n) n (settle stage command answer) (settle stage command' answer') := by
  cases hanswer with
  | refused errno file file' => exact .failed (.stage rfl rfl)
  | same =>
    rcases answer with (cause | e | _ | _ | _) | reply
    · exact .failed (.same _)
    · exact .failed (.stage rfl rfl)
    · exact .failed (.same _)
    · exact .failed (.same _)
    · exact .failed (.same _)
    · rw [settle, settle]
      split
      · exact .failed (.stage rfl rfl)
      · exact .log (.done rfl)

/-- A stage launches one command on each side. -/
theorem paired_runStage {R : Nat → Request → Request → Prop} {command command' : List String}
    {environment environment' : Option Bindings}
    (hasks : R n (command, environment) (command', environment')) :
    Paired own R (fun m _ _ => m = n + 1) n (runStage stage command false environment)
      (runStage stage command' false environment') := by
  apply paired_log_bind
  apply paired_bind (paired_launch hasks)
  rintro m answer answer' ⟨rfl, hsame⟩
  exact paired_settle hsame

theorem asks_same {command : List String} (hn : n ≠ 1) :
    Asks own c c' n (command, none) (command, none) := by
  rw [Asks, if_neg hn]
  exact ⟨rfl, rfl⟩

theorem paired_emitBitcode :
    Paired own (Asks own c c') (fun m a a' => m = 1 ∧ a' = a) 0
      (emitBitcode source driver args path false) (emitBitcode source driver args path false) := by
  apply paired_ask_bind (.createFile path (source ++ ".bc")) fun _ => rfl
  intro bitcode
  apply paired_log_bind
  apply paired_bind (paired_runStage (asks_same Nat.zero_ne_one))
  rintro m _ _ rfl
  exact paired_log_bind (.done ⟨rfl, rfl⟩)

/-- Stage two is where the configurations matter. -/
theorem paired_schedulePasses {bitcode : String} :
    Paired own (Asks own c c') (fun m a a' => m = 2 ∧ a' = a) 1
      (schedulePasses source c bitcode path false) (schedulePasses source c' bitcode path false) := by
  apply paired_ask_bind (.createFile path (Path.stem bitcode ++ ".opt.bc")) fun _ => rfl
  intro optimized
  apply paired_log_bind
  apply paired_environment_bind
  have hasks : Asks own c c' 1
      (c.optimizer :: StageCommand.schedulePasses c.optimizerArguments bitcode optimized,
        some (optimizerEnvironment own c))
      (c'.optimizer :: StageCommand.schedulePasses c'.optimizerArguments bitcode optimized,
        some (optimizerEnvironment own c')) := ⟨rfl, rfl⟩
  apply paired_bind (paired_runStage hasks)
  rintro m _ _ rfl
  exact paired_log_bind (.done ⟨rfl, rfl⟩)

theorem paired_buildBitcode {optimized : String} :
    Paired own (Asks own c c') (fun _ a a' => a' = a) 2
      (buildBitcode driver optimized args false) (buildBitcode driver optimized args false) := by
  rw [buildBitcode]
  dsimp only
  split
  · exact .failed (.same _)
  · apply paired_log_bind
    apply paired_bind (paired_runStage (asks_same (by decide : 2 ≠ 1)))
    rintro m _ _ rfl
    exact paired_log_bind (.done rfl)

theorem paired_stages (hreal : c.isDryRun = false) (hreal' : c'.isDryRun = false) :
    Paired own (Asks own c c') (fun _ a a' => a' = a) 0 (stages c driver source args path)
      (stages c' driver source args path) := by
  simp only [stages, hreal, hreal', Bool.false_eq_true, ↓reduceIte, bind_pure]
  apply paired_bind paired_emitBitcode
  rintro m bitcode _ ⟨rfl, rfl⟩
  apply paired_bind paired_schedulePasses
  rintro m optimized _ ⟨rfl, rfl⟩
  exact paired_buildBitcode

theorem paired_sourceName {R : Nat → Request → Request → Prop} (args : Arguments) :
    Paired own R (fun m a a' => m = n ∧ a' = a) n (sourceName args) (sourceName args) := by
  rw [sourceName]
  dsimp only
  split <;> exact paired_log_bind (.done ⟨rfl, rfl⟩)

/-- What is done in a workspace is done in that of the same path. -/
theorem paired_withWorkspace {α : Type} {R : Nat → Request → Request → Prop} {retain : Bool}
    {body body' : String → Job α}
    (hbody : ∀ path, Paired own R (fun _ a a' => a' = a) n (body path) (body' path)) :
    Paired own R (fun _ a a' => a' = a) n (Job.withWorkspace retain body)
      (Job.withWorkspace retain body') := by
  apply paired_ask_bind .makeWorkspace fun _ => rfl
  intro path
  apply paired_bind (paired_attempt (hbody path))
  intro m result result' hend
  apply paired_ask_bind (.releaseWorkspace retain path) fun _ => rfl
  intro _
  exact paired_ofExcept hend

/-- The compile steps of two real configurations that release their workspaces alike. -/
theorem paired_compile (hreal : c.isDryRun = false) (hreal' : c'.isDryRun = false)
    (hretains : c'.retainsWorkspace = c.retainsWorkspace) :
    Paired own (Asks own c c') (fun _ a a' => a' = a) 0 (compile c driver args)
      (compile c' driver args) := by
  rw [compile, compile, hretains]
  apply paired_log_bind
  apply paired_bind (paired_sourceName args)
  rintro m source _ ⟨rfl, rfl⟩
  apply paired_bind (paired_withWorkspace fun path => paired_stages hreal hreal')
  rintro m object _ rfl
  exact paired_log_bind (.done rfl)

theorem exitCode_of_sameKind {cause cause' : Failure} (hkind : SameKind (.failure cause) (.failure cause')) :
    cause'.exitCode = cause.exitCode := by
  cases hkind with
  | same => rfl
  | stage stage code => rw [Failure.exitCode, Failure.exitCode, StageError.exitCode, StageError.exitCode, code]

/-- Results of two runs and the calls that were made in them, where the optimizer's settings are in the second
call and nowhere else. -/
structure ReachSecondOnly (own : Bindings) (c c' : Config) (result result' : Except Fault String)
    (cs cs' : List Call) : Prop where
  sameEnd : SameEnd (fun object object' => object' = object) result result'
  sameExitCode : ∀ cause cause', result = .error (.failure cause) → result' = .error (.failure cause') →
    cause'.exitCode = cause.exitCode
  sameLength : cs'.length = cs.length
  others : ∀ k call call', k ≠ 1 → cs[k]? = some call → cs'[k]? = some call' →
    call'.command = call.command ∧ call.environment = none ∧ call'.environment = none
  second : ∀ call call', cs[1]? = some call → cs'[1]? = some call' →
    ∃ env env', call.environment = some env ∧ Overlays own c.optimizerEnvironment env ∧
      call'.environment = some env' ∧ Overlays own c'.optimizerEnvironment env'

theorem reachSecondOnly_of_inStep {result result' : Except Fault String} {cs cs' : List Call}
    (hend : SameEnd (fun object object' => object' = object) result result')
    (hsteps : InStep (Asks own c c') 0 cs cs') : ReachSecondOnly own c c' result result' cs cs' := by
  have hasks : ∀ k call call', cs[k]? = some call → cs'[k]? = some call' →
      Asks own c c' k call.request call'.request := by
    intro k call call' hcall hcall'
    have hat := hsteps.asks_of_getElem? hcall hcall'
    rwa [Nat.zero_add] at hat
  refine ⟨hend, ?_, hsteps.length_eq, ?_, ?_⟩
  · rintro cause cause' rfl rfl
    cases hend with
    | error kind => exact exitCode_of_sameKind kind
  · intro k call call' hk hcall hcall'
    have hat := hasks k call call' hcall hcall'
    rw [Asks, if_neg hk] at hat
    obtain ⟨hsame, hnone⟩ := hat
    exact ⟨congrArg Prod.fst hsame, hnone, (congrArg Prod.snd hsame).trans hnone⟩
  · intro call call' hcall hcall'
    have hat := hasks 1 call call' hcall hcall'
    rw [Asks, if_pos rfl] at hat
    exact ⟨_, _, hat.1, overlays_optimizerEnvironment own c, hat.2, overlays_optimizerEnvironment own c'⟩

/-- The seed, the optimizer, its arguments and its environment show in the second call only, whatever a script
has the commands answer, and the wrapper's own environment stays as it was. -/
theorem compile_confines_optimizer_settings (script : List Runner.Scripted) (driver : String)
    (args : Arguments) (h : Host) (hreal : c.isDryRun = false) (hreal' : c'.isDryRun = false)
    (hretains : c'.retainsWorkspace = c.retainsWorkspace) :
    ReachSecondOnly h.environment c c' (outcome ((compile c driver args).run (.scripted script)) h).1
        (outcome ((compile c' driver args).run (.scripted script)) h).1
        (calls ((compile c driver args).events (.scripted script) h))
        (calls ((compile c' driver args).events (.scripted script) h)) ∧
      (outcome ((compile c driver args).run (.scripted script)) h).2.environment = h.environment ∧
      (outcome ((compile c' driver args).run (.scripted script)) h).2.environment = h.environment := by
  have hpaired := @paired_compile c c' driver args h.environment hreal hreal' hretains
  obtain ⟨hend, hsteps⟩ := Paired.run script hpaired (rfl : h.bare = h.bare) rfl
  have hsame := hend.mono fun object object' ⟨_, heq⟩ => heq
  exact ⟨reachSecondOnly_of_inStep hsame hsteps, environment_of_run script _ h, environment_of_run script _ h⟩

/-- A configuration with other settings for the optimizer. -/
def tunedConfig : Config := ⟨7, some "/bin/clang", "/bin/opt", ["-O2"], [("SEED", "7")], false, false⟩

theorem compile_confines_optimizer_settings_of_tuned :
    oneDriverConfig.isDryRun = false ∧ tunedConfig.isDryRun = false ∧
      tunedConfig.retainsWorkspace = oneDriverConfig.retainsWorkspace ∧
      ReachSecondOnly oneDriver.environment oneDriverConfig tunedConfig
        (outcome ((compile oneDriverConfig "/bin/clang" simpleArguments).run (.scripted [])) oneDriver).1
        (outcome ((compile tunedConfig "/bin/clang" simpleArguments).run (.scripted [])) oneDriver).1
        (calls ((compile oneDriverConfig "/bin/clang" simpleArguments).events (.scripted []) oneDriver))
        (calls ((compile tunedConfig "/bin/clang" simpleArguments).events (.scripted []) oneDriver)) :=
  ⟨rfl, rfl, rfl,
    (@compile_confines_optimizer_settings oneDriverConfig tunedConfig [] "/bin/clang" simpleArguments
      oneDriver rfl rfl rfl).1⟩

end Pipeline

end BitcodeWrapper
