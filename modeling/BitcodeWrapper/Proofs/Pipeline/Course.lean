import BitcodeWrapper.Proofs.Pipeline.Dispatch
import BitcodeWrapper.Proofs.Workspace.Custody
import BitcodeWrapper.Proofs.Workspace.Notice

/-! The course of a run. All that touches files goes on in one workspace, which is made first and
released last, between records of the log. -/
namespace BitcodeWrapper.Pipeline
open BitcodeWrapper.Action Job Workspace

variable {c : Config} {driver source path : String} {args : Arguments} {es : List Event}

/-- The steps of a run that has no workspace. -/
def IsRunning : Step → Prop
  | .launch _ _ | .environment | .echo _ | .log _ _ => True
  | .makeWorkspace | .createFile _ _ | .releaseWorkspace _ _ => False

def IsRecord (e : Event) : Prop := ∃ level message, e = ⟨.log level message, .ok ()⟩

/-- The events of a run with a workspace: before it is made, in it, and after it is released. -/
def throughWorkspace (retain : Bool) (path : String) (before body after : List Event) :
    List Event :=
  before ++ ([⟨.makeWorkspace, .ok path⟩] ++
    (body ++ ([⟨.releaseWorkspace retain path, .ok ()⟩] ++ after)))

theorem recordsTo_of_passes {runner : Runner} {h h' : Host} {ms : List Moment}
    (hp : Passes runner h ms h') (hrecord : ∀ m ∈ ms, IsRecord m.event) :
    Host.RecordsTo h h' := by
  induction hp with
  | nil h => exact .refl
  | @cons s h h' ms rest ih =>
    obtain ⟨⟨level, message, hevent⟩, hlater⟩ := List.forall_mem_cons.mp hrecord
    obtain rfl : s = .log level message := congrArg Event.step hevent
    exact (Host.RecordsTo.single h (h.ownRecord level message)).trans (ih hlater)

/-- The machines that a run with a workspace stands at: on either side of the making and of the release. -/
theorem passes_throughWorkspace {runner : Runner} {h h' : Host} {ms : List Moment} {retain : Bool}
    {before body after : List Event} (hp : Passes runner h ms h')
    (he : ms.map (·.event) = throughWorkspace retain path before body after)
    (hbefore : ∀ e ∈ before, IsRecord e) (hafter : ∀ e ∈ after, IsRecord e) :
    ∃ first inside last ha hb hc hd,
      ms = first ++ ([⟨ha, ⟨.makeWorkspace, .ok path⟩, hb⟩] ++
        (inside ++ ([⟨hc, ⟨.releaseWorkspace retain path, .ok ()⟩, hd⟩] ++ last))) ∧
      first.map (·.event) = before ∧ inside.map (·.event) = body ∧ last.map (·.event) = after ∧
      Host.RecordsTo h ha ∧ Step.makeWorkspace.outcome runner ha = (.ok path, hb) ∧
      Passes runner hb inside hc ∧
      (Step.releaseWorkspace retain path).outcome runner hc = (.ok (), hd) ∧
      Host.RecordsTo hd h' := by
  obtain ⟨first, ms', ha, rfl, rfl, he', hp₁, hp'⟩ := hp.split he
  obtain ⟨making, ms', hb, rfl, heMaking, he', hp₂, hp'⟩ := hp'.split he'
  obtain ⟨inside, ms', hc, rfl, rfl, he', hp₃, hp'⟩ := hp'.split he'
  obtain ⟨releasing, last, hd, rfl, heReleasing, rfl, hp₄, hp₅⟩ := hp'.split he'
  obtain ⟨rfl, hmake⟩ := hp₂.single heMaking
  obtain ⟨rfl, hrelease⟩ := hp₄.single heReleasing
  exact ⟨first, inside, last, ha, hb, hc, hd, rfl, rfl, rfl, rfl,
    recordsTo_of_passes hp₁ (List.forall_mem_map.mp hbefore), hmake, hp₃, hrelease,
    recordsTo_of_passes hp₅ (List.forall_mem_map.mp hafter)⟩

/-- A moment of such a run is one of a record, or it is in the workspace or at its beginning or end. -/
theorem cases_of_mem {first inside last : List Moment} {making releasing m : Moment}
    (hfirst : ∀ e ∈ first.map (·.event), IsRecord e) (hlast : ∀ e ∈ last.map (·.event), IsRecord e)
    (hm : m ∈ first ++ ([making] ++ (inside ++ ([releasing] ++ last)))) :
    IsRecord m.event ∨ m = making ∨ m ∈ inside ∨ m = releasing := by
  simp only [List.mem_append, List.mem_singleton] at hm
  rcases hm with hm | hm | hm | hm | hm
  · exact .inl (hfirst _ (List.mem_map_of_mem hm))
  · exact .inr (.inl hm)
  · exact .inr (.inr (.inl hm))
  · exact .inr (.inr (.inr hm))
  · exact .inl (hlast _ (List.mem_map_of_mem hm))

/-- All that touches files goes on in the workspace. -/
structure StaysInside (path : String) (before body after : List Event) : Prop where
  before : ∀ e ∈ before, IsRecord e
  inside : ∀ e ∈ body, InWorkspace path e.step
  after : ∀ e ∈ after, IsRecord e

theorem call?_of_isRecord {e : Event} (h : IsRecord e) : e.call? = none := by
  obtain ⟨level, message, rfl⟩ := h
  rfl

theorem calls_of_records (h : ∀ e ∈ es, IsRecord e) : calls es = [] :=
  List.filterMap_eq_nil_iff.mpr fun e he => call?_of_isRecord (h e he)

theorem files_of_records (h : ∀ e ∈ es, IsRecord e) : files es = [] := by
  refine List.filterMap_eq_nil_iff.mpr fun e he => ?_
  obtain ⟨level, message, rfl⟩ := h e he
  rfl

/-- Commands are launched in the workspace only. -/
theorem calls_throughWorkspace {retain : Bool} {before body after : List Event}
    (hbefore : ∀ e ∈ before, IsRecord e) (hafter : ∀ e ∈ after, IsRecord e) :
    calls (throughWorkspace retain path before body after) = calls body := by
  rw [throughWorkspace, calls_append, calls_append, calls_append, calls_append,
    calls_of_records hbefore, calls_of_records hafter, List.append_nil, List.nil_append]
  exact List.append_nil _

/-- Files are made in the workspace only. -/
theorem files_throughWorkspace {retain : Bool} {before body after : List Event}
    (hbefore : ∀ e ∈ before, IsRecord e) (hafter : ∀ e ∈ after, IsRecord e) :
    files (throughWorkspace retain path before body after) = files body := by
  rw [throughWorkspace, files_append, files_append, files_append, files_append,
    files_of_records hbefore, files_of_records hafter, List.append_nil, List.nil_append]
  exact List.append_nil _

inductive Course (c : Config) (args : Arguments) : List Event → Prop
  | withoutWorkspace {es : List Event} (running : ∀ e ∈ es, IsRunning e.step) : Course c args es
  | unmade {before after : List Event} {fault : Fault}
      (hbefore : ∀ e ∈ before, IsRecord e) (hafter : ∀ e ∈ after, IsRecord e) :
      Course c args (before ++ ([⟨.makeWorkspace, .error fault⟩] ++ after))
  | inWorkspace {before body after : List Event} {path : String}
      (compiling : args.has SourceFile.compileFlag = true)
      (parts : StaysInside path before body after) :
      Course c args (throughWorkspace c.retainsWorkspace path before body after)

section only
variable {P : Step → Prop}

theorem only_settle (hdebug : ∀ message, P (.log .debug message)) (stage : String)
    (command : List String) (answer : Except Fault Reply) :
    Only P (settle stage command answer) := by
  rcases answer with fault | reply
  · cases fault <;> trivial
  · rw [settle]
    split
    · trivial
    · exact only_bind (only_ask (hdebug _)) fun _ => trivial

theorem only_runStage (hdebug : ∀ message, P (.log .debug message))
    (hlaunch : ∀ command environment, P (.launch command environment)) (stage : String)
    (command : List String) (isDryRun : Bool) (environment : Option Bindings) :
    Only P (runStage stage command isDryRun environment) := by
  refine only_bind (only_ask (hdebug _)) fun _ => ?_
  cases isDryRun with
  | true => exact only_bind (only_ask (hdebug _)) fun _ => trivial
  | false =>
    refine only_bind (only_attempt (only_ask (hlaunch _ _))) fun answer => ?_
    exact only_settle hdebug stage command answer

/-- The log of real runs. -/
theorem only_record {level : Log.Level} (hlog : ∀ message, P (.log level message)) {isDryRun : Bool}
    {message : String} {α : Type} {a : α} :
    Only P (if (!isDryRun) = true then log level message >>= fun _ => pure a else pure a) := by
  split
  · exact only_bind (only_ask (hlog _)) fun _ => trivial
  · trivial

/-- The steps of the stages: two files, their commands, and records of what goes well. -/
theorem only_stages_of (hdebug : ∀ message, P (.log .debug message))
    (hinfo : ∀ message, P (.log .info message))
    (hlaunch : ∀ command environment, P (.launch command environment)) (henvironment : P .environment)
    (hbitcode : P (.createFile path (source ++ ".bc")))
    (hoptimized : ∀ bitcode, P (.createFile path (Path.stem bitcode ++ ".opt.bc"))) (c : Config)
    (driver : String) (args : Arguments) : Only P (stages c driver source args path) := by
  refine only_bind ?_ fun bitcode => only_bind ?_ fun optimized => only_bind ?_ fun object => ?_
  · refine only_bind (only_ask hbitcode) fun bitcode => ?_
    refine only_bind (only_ask (hinfo _)) fun _ => ?_
    refine only_bind (only_runStage hdebug hlaunch _ _ _ _) fun _ => ?_
    exact only_record hinfo
  · refine only_bind (only_ask (hoptimized bitcode)) fun optimized => ?_
    refine only_bind (only_ask (hdebug _)) fun _ => only_bind (only_ask henvironment) fun own => ?_
    refine only_bind (only_runStage hdebug hlaunch _ _ _ _) fun _ => ?_
    exact only_record hinfo
  · rw [buildBitcode]
    dsimp only
    split
    · trivial
    · refine only_bind (only_ask (hdebug _)) fun _ => ?_
      refine only_bind (only_runStage hdebug hlaunch _ _ _ _) fun _ => ?_
      exact only_record hinfo
  · split
    · refine only_bind (only_ask (hdebug _)) fun _ => ?_
      exact only_bind (only_runStage hdebug hlaunch _ _ _ _) fun _ => trivial
    · trivial

end only

theorem only_forward (driver : String) (args : Arguments) : Only IsRunning (forward driver args) := by
  refine only_bind (only_ask trivial) fun _ => ?_
  refine only_bind (only_attempt (only_ask trivial)) fun answer => ?_
  rcases answer with (_ | _ | _ | _ | _) | reply
  any_goals trivial
  · exact only_bind (only_ask trivial) fun _ => trivial
  · refine only_bind (only_ask trivial) fun _ => ?_
    dsimp only
    split
    · exact only_bind (only_ask trivial) fun _ => trivial
    · trivial

theorem isPlain_bitcode (args : Arguments) : Files.IsPlain (fileName args ++ ".bc") :=
  isPlain_append (slash_notMem_fileName args) (by decide) (by decide)

theorem isPlain_optimized (bitcode : String) : Files.IsPlain (Path.stem bitcode ++ ".opt.bc") :=
  isPlain_append (slash_notMem_stem bitcode) (by decide) (by decide)

/-- The stages make their files in their workspace. -/
theorem only_stages (c : Config) (driver : String) (args : Arguments) (path : String) :
    Only (InWorkspace path) (stages c driver (fileName args) args path) :=
  only_stages_of (fun _ => trivial) (fun _ => trivial) (fun _ _ => trivial) trivial
    ⟨rfl, isPlain_bitcode args⟩ (fun bitcode => ⟨rfl, isPlain_optimized bitcode⟩) c driver args

/-- The first record of a compile step. -/
def configRecord (c : Config) (args : Arguments) : Event :=
  ⟨.log .debug ("Config: " ++ c.shown ++ ", args: " ++ Text.quotedList args), .ok ()⟩

/-- The record of what is compiled. -/
def sourceRecord (args : Arguments) : Event :=
  if (SourceFile.ofArguments args).name = "" then
    ⟨.log .warning ("Could not find the source file in " ++ Text.quotedList args), .ok ()⟩
  else
    ⟨.log .debug ((SourceFile.ofArguments args).name ++ " is " ++
      (SourceFile.ofArguments args).language.name), .ok ()⟩

theorem isRecord_first (c : Config) (args : Arguments) :
    ∀ e ∈ [configRecord c args, sourceRecord args], IsRecord e := by
  refine List.forall_mem_cons.mpr ⟨⟨_, _, rfl⟩, fun e he => ?_⟩
  rw [List.mem_singleton.mp he, sourceRecord]
  split <;> exact ⟨_, _, rfl⟩

/-- What is compiled is recorded and nothing else happens. -/
theorem follows_sourceName_bind {α : Type} {f : String → Job α} {r : Except Fault α}
    (h : Follows (sourceName args >>= f) es r) :
    ∃ es', es = sourceRecord args :: es' ∧ Follows (f (fileName args)) es' r := by
  rw [sourceName] at h
  rw [sourceRecord]
  dsimp only at h
  split at h
  · rw [if_pos ‹_›]
    rw [bind_assoc] at h
    exact follows_log_bind_iff.mp h
  · rw [if_neg ‹_›]
    rw [Job.debug, bind_assoc] at h
    exact follows_log_bind_iff.mp h

/-- A record that says that something went well. -/
def IsSuccess (e : Event) : Prop := ∃ message, e = ⟨.log .info message, .ok ()⟩

theorem IsSuccess.isRecord {e : Event} (h : IsSuccess e) : IsRecord e := by
  obtain ⟨message, rfl⟩ := h
  exact ⟨.info, message, rfl⟩

/-- A compile step between its records: either it has no workspace, or it goes through the stages
there. -/
theorem parts_of_follows_compile {r : Except Fault String} (h : Follows (compile c driver args) es r) :
    ∃ after, (∀ e ∈ after, IsSuccess e) ∧
      ((∃ fault, r = .error fault ∧
          es = [configRecord c args, sourceRecord args] ++ ([⟨.makeWorkspace, .error fault⟩] ++ after)) ∨
        ∃ path body, Follows (stages c driver (fileName args) args path) body r ∧
          es = throughWorkspace c.retainsWorkspace path [configRecord c args, sourceRecord args] body
            after) := by
  obtain ⟨es, rfl, hsource⟩ := follows_log_bind_iff.mp h
  obtain ⟨es, rfl, hrest⟩ := follows_sourceName_bind hsource
  obtain ⟨core, after, rfl, hafter, hcore⟩ : ∃ core after, es = core ++ after ∧
      (∀ e ∈ after, IsSuccess e) ∧
      Follows (withWorkspace c.retainsWorkspace (stages c driver (fileName args) args)) core r := by
    obtain ⟨fault, hcore, rfl⟩ | ⟨object, core, after, rfl, hcore, hlast⟩ :=
      follows_bind_iff.mp hrest
    · exact ⟨es, [], (List.append_nil es).symm, List.forall_mem_nil _, hcore⟩
    · obtain ⟨es, rfl, hpure⟩ := follows_log_bind_iff.mp hlast
      obtain ⟨rfl, rfl⟩ := follows_pure_iff.mp hpure
      refine ⟨core, _, rfl, fun e he => ?_, hcore⟩
      exact ⟨_, List.mem_singleton.mp he⟩
  refine ⟨after, hafter, ?_⟩
  obtain ⟨fault, -, rfl, rfl⟩ | ⟨path, body, hbody, rfl⟩ := follows_withWorkspace_iff.mp hcore
  · exact .inl ⟨fault, rfl, rfl⟩
  · refine .inr ⟨path, body, hbody, ?_⟩
    simp only [throughWorkspace, configRecord, List.cons_append, List.nil_append, List.append_assoc]

theorem files_unmade {after : List Event} {fault : Fault} (hafter : ∀ e ∈ after, IsSuccess e) :
    files ([configRecord c args, sourceRecord args] ++ ([⟨.makeWorkspace, .error fault⟩] ++ after)) =
      [] := by
  rw [files_append, files_append, files_of_records (isRecord_first c args),
    files_of_records fun e he => (hafter e he).isRecord]
  rfl

/-- A compile step succeeds with the exit code zero. -/
theorem follows_work_of_compile (hcompile : args.has SourceFile.compileFlag = true)
    {r : Except Fault Int} (h : Follows (work c driver args) es r) :
    ∃ r', Follows (compile c driver args) es r' ∧ r = r'.map fun _ => 0 := by
  simp only [work, hcompile, Bool.not_true, Bool.false_eq_true, ↓reduceIte] at h
  obtain ⟨fault, hrun, rfl⟩ | ⟨object, es, es', rfl, hrun, hlast⟩ := follows_bind_iff.mp h
  · exact ⟨_, hrun, rfl⟩
  · obtain ⟨rfl, rfl⟩ := follows_pure_iff.mp hlast
    exact ⟨_, by rwa [List.append_nil], rfl⟩

end BitcodeWrapper.Pipeline
