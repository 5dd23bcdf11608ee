import BitcodeWrapper.Proofs.Pipeline.ExitCode
import BitcodeWrapper.Proofs.Pipeline.Visit
import BitcodeWrapper.Proofs.Workspace.Ready

/-! How far a run gets on a machine that is ready for it: nothing is refused but launches. -/
namespace BitcodeWrapper.Pipeline
open BitcodeWrapper.Action Files Job Workspace

variable {runner : Runner} {c : Config} {driver source path : String} {args : Arguments}
  {vs : List Event} {r : Except Fault String} {h h' h₀ : Host} {T W : Location}

/-- The name of a file that is asked for. -/
def asked? : Event → Option String
  | ⟨.createFile _ name, _⟩ => some name
  | _ => none

theorem asked_stageEvents (isDryRun : Bool) (command : List String) (environment : Option Bindings)
    (answer : Except Fault Reply) :
    (stageEvents isDryRun command environment answer).filterMap asked? = [] := by
  cases isDryRun <;> rfl

/-- Files that are made get the paths that they are asked for under, unless a variable in these is
expanded. -/
def MadeJoined (es : List Event) : Prop :=
  ∀ directory name whole, (⟨.createFile directory name, .ok whole⟩ : Event) ∈ es →
    '$' ∉ name.toList → whole = Path.join directory name

theorem eq_of_map_eq_ok {α β : Type} {x : Except Fault α} {a b : β}
    (h : (x.map fun _ => a) = .ok b) : b = a := by
  cases x with
  | error fault => exact nomatch h
  | ok _ => exact (Except.ok.inj h).symm

theorem asked_emitBitcode {isDryRun : Bool}
    (h : Shows (emitBitcode source driver args path isDryRun) vs r) :
    vs.filterMap asked? = [source ++ ".bc"] ∧
      ∀ bitcode, r = .ok bitcode → ⟨.createFile path (source ++ ".bc"), .ok bitcode⟩ ∈ vs := by
  obtain ⟨fault, -, rfl, rfl⟩ | ⟨bitcode, answer, rfl, rfl⟩ := shows_emitBitcode_iff.mp h
  · exact ⟨rfl, nofun⟩
  · refine ⟨congrArg _ (asked_stageEvents isDryRun _ none answer), fun bitcode' hresult => ?_⟩
    rw [eq_of_map_eq_ok hresult]
    exact List.mem_cons_self

theorem asked_schedulePasses {isDryRun : Bool} {bitcode : String}
    (h : Shows (schedulePasses source c bitcode path isDryRun) vs r) :
    vs.filterMap asked? = [Path.stem bitcode ++ ".opt.bc"] := by
  obtain ⟨fault, -, rfl, -⟩ | ⟨optimized, own, answer, rfl, -⟩ := shows_schedulePasses_iff.mp h
  · rfl
  · exact congrArg _ (asked_stageEvents isDryRun _ _ answer)

theorem asked_buildBitcode {isDryRun : Bool} {optimized : String}
    (h : Shows (buildBitcode driver optimized args isDryRun) vs r) : vs.filterMap asked? = [] := by
  obtain ⟨-, rfl, -⟩ | ⟨-, answer, rfl, -⟩ := shows_buildBitcode_iff.mp h
  · rfl
  · exact asked_stageEvents isDryRun _ none answer

/-- A dry run asks for no file after its stages. -/
theorem asked_ending {object : String}
    (h : Shows (if c.isDryRun = true then
        Job.debug "Running original clang during dry-run..." >>= fun _ =>
          runStage "running original clang during dry-run" (driver :: args) false none >>= fun _ =>
            pure object
      else pure object) vs r) : vs.filterMap asked? = [] := by
  cases hdry : c.isDryRun with
  | true =>
    simp only [hdry, ↓reduceIte, Job.debug, shows_log_bind_iff] at h
    obtain ⟨r', hstage, -⟩ := (shows_bind_quiet_iff (g := fun _ => object)
      fun _ _ _ => shows_pure_iff).mp h
    obtain ⟨answer, rfl, -⟩ := shows_runStage_iff.mp hstage
    rfl
  | false =>
    simp only [hdry, Bool.false_eq_true, ↓reduceIte] at h
    obtain ⟨rfl, -⟩ := shows_pure_iff.mp h
    rfl

/-- The stages ask for two files at most, called after the source. -/
theorem asked_stages (hsource : '$' ∉ source.toList)
    (hstem : Path.stem (Path.join path (source ++ ".bc")) = source) (hmade : MadeJoined vs)
    (h : Shows (stages c driver source args path) vs r) :
    vs.filterMap asked? <+: [source ++ ".bc", source ++ ".opt.bc"] := by
  obtain ⟨fault, h₁, rfl⟩ | ⟨bitcode, vs₁, vs', rfl, h₁, h'⟩ := shows_bind_iff.mp h
  · rw [(asked_emitBitcode h₁).1]
    exact List.prefix_append _ _
  obtain ⟨hfirst, hbitcode⟩ := asked_emitBitcode h₁
  obtain rfl : bitcode = Path.join path (source ++ ".bc") :=
    hmade _ _ _ (List.mem_append_left _ (hbitcode bitcode rfl))
      (notMem_append hsource (by decide))
  rw [List.filterMap_append, hfirst, List.singleton_append]
  refine List.cons_prefix_cons.mpr ⟨rfl, ?_⟩
  obtain ⟨fault, h₂, rfl⟩ | ⟨optimized, vs₂, vs₃, rfl, h₂, h₃⟩ := shows_bind_iff.mp h'
  · rw [asked_schedulePasses h₂, hstem]
  rw [List.filterMap_append, asked_schedulePasses h₂, hstem]
  suffices hnone : vs₃.filterMap asked? = [] by rw [hnone, List.append_nil]
  obtain ⟨fault, hbuild, rfl⟩ | ⟨object, vs₃, vs₄, rfl, hbuild, hending⟩ := shows_bind_iff.mp h₃
  · exact asked_buildBitcode hbuild
  · rw [List.filterMap_append, asked_buildBitcode hbuild, asked_ending hending, List.append_nil]

/-- In a workspace paths lead to the same places throughout, as long as launches make no directories or
links. -/
theorem sameWays_inside {ms : List Moment} (hp : Passes runner h ms h')
    (hin : ∀ m ∈ ms, InWorkspace path m.event.step)
    (hways : ∀ m ∈ ms, m.event.call?.isSome → m.before.SameWays m.after) :
    ∀ m ∈ ms, h.SameWays m.before :=
  (hp.keeps (I := h.SameWays) (fun m hm hout hw =>
    hw.trans (sameWays_of_outcome (hin m hm) hout (hways m hm))) (.refl h)).1

/-- In a workspace that was made empty each file that a run asks for can be opened, as long as launches
make no directories or links. -/
theorem created_inside {ms : List Moment} (hready : IsReady h₀ source T)
    (hs : StandsAt h (pathOf h₀ (h₀.attempts + 1)) (T ++ [nameOf (h₀.attempts + 1)]))
    (hempty : ∀ name, h.files.get? (T ++ [nameOf (h₀.attempts + 1)] ++ [name]) = none)
    (hp : Passes runner h ms h')
    (hin : ∀ m ∈ ms, InWorkspace (pathOf h₀ (h₀.attempts + 1)) m.event.step)
    (hways : ∀ m ∈ ms, m.event.call?.isSome → m.before.SameWays m.after)
    (hfollows : Follows (stages c driver source args (pathOf h₀ (h₀.attempts + 1)))
      (ms.map (·.event)) r) :
    ∀ m ∈ ms, ∀ directory name answer, m.event = ⟨.createFile directory name, answer⟩ →
      CanOpen m.before directory name ∧ answer = .ok (Path.join directory name) := by
  have hsame := sameWays_inside hp hin hways
  have hstands : ∀ m ∈ ms, StandsAt m.before _ _ := fun m hm => hs.of_sameWays (hsame m hm)
  have hjoined : ∀ m ∈ ms, ∀ directory name answer, m.event = ⟨.createFile directory name, answer⟩ →
      '$' ∉ name.toList → CanOpen m.before directory name →
      answer = .ok (Path.join directory name) := by
    rintro ⟨before, event, after⟩ hm directory name answer rfl hdollar hopen
    obtain ⟨rfl, hname⟩ := hin _ hm
    obtain ⟨-, files, -, ho⟩ := (hstands _ hm).createFile hname hdollar hopen
    exact congrArg Prod.fst ((hp.outcome_of_mem hm).symm.trans ho)
  have hmade : MadeJoined (ms.map (·.event)) := by
    intro directory name whole hmem hdollar
    obtain ⟨m, hm, hevent⟩ := List.mem_map.mp hmem
    have hout := hp.outcome_of_mem hm
    obtain ⟨before, event, after⟩ := m
    obtain rfl : event = _ := hevent
    exact Except.ok.inj (hjoined _ hm _ _ _ rfl hdollar (canOpen_of_createFile hout))
  have hasked := asked_stages hready.noVariable.2
    (Path.stem_join hs.direct.ne_empty hready.noSlash hready.notDots)
    (fun directory name whole hmem => hmade directory name whole (List.mem_filter.mp hmem).1)
    hfollows.shows
  intro m hm directory name answer hevent
  have hname : name = source ++ ".bc" ∨ name = source ++ ".opt.bc" := by
    have hmem : name ∈ ((ms.map (·.event)).filter (·.isVisible)).filterMap asked? := by
      refine List.mem_filterMap.mpr ⟨m.event, List.mem_filter.mpr ⟨List.mem_map_of_mem hm, ?_⟩, ?_⟩ <;>
        rw [hevent] <;> rfl
    simpa using hasked.subset hmem
  have hin' := hin m hm
  rw [hevent] at hin'
  obtain ⟨rfl, -⟩ := hin'
  obtain ⟨hdollar, hopen⟩ := hready.canOpen (hstands m hm) (fun name hdirectory =>
    nomatch (hempty name).symm.trans ((hsame m hm).keptFrom _ _ hdirectory trivial)) hname
  exact ⟨hopen, hjoined m hm _ _ _ hevent hdollar hopen⟩

/-- A run on a machine that is ready for it makes its workspace, and in there all files that it asks
for. -/
structure Progresses (path : String) (W : Location) (ms : List Moment) : Prop where
  made : ∀ m ∈ ms, ∀ answer, m.event = ⟨.makeWorkspace, answer⟩ →
    answer = .ok path ∧ m.after.files.IsDirect path W
  created : ∀ m ∈ ms, ∀ directory name answer, m.event = ⟨.createFile directory name, answer⟩ →
    CanOpen m.before directory name ∧ answer = .ok (Path.join directory name)

/-- On a machine that is ready for some name the workspace is visited, and it is empty at first. -/
theorem visit_of_isReady {ms : List Moment} (hready : IsReady h source T) (hp : Passes runner h ms h')
    (hfollows : Follows (compile c driver args) (ms.map (·.event)) r) :
    ∃ v : Visit, ms = v.moments ∧ v.Occurs runner c driver args h (pathOf h (h.attempts + 1)) r ∧
      StandsAt v.making.after (pathOf h (h.attempts + 1)) (T ++ [nameOf (h.attempts + 1)]) ∧
      ∀ name, v.making.after.files.get? (T ++ [nameOf (h.attempts + 1)] ++ [name]) = none := by
  obtain ⟨-, m, hm, fault, -, hrecords, hmake⟩ | ⟨v, path', rfl, hv⟩ :=
    visit_of_passes_compile hp hfollows
  · obtain ⟨h', hout, -⟩ := (hready.of_recordsTo hrecords).make
    cases congrArg Prod.fst (hmake.symm.trans hout)
  · obtain ⟨-, htemporary, hattempts, -⟩ := hv.before.machine_eq
    have hpath : pathOf v.making.before (v.making.before.attempts + 1) = pathOf h (h.attempts + 1) := by
      rw [pathOf, pathOf, htemporary, hattempts]
    obtain ⟨h', hout, hstands, hempty⟩ := (hready.of_recordsTo hv.before).make
    rw [hpath, hattempts] at hstands
    rw [hattempts] at hempty
    obtain ⟨hanswer, rfl⟩ := Prod.mk.inj (hv.make.symm.trans hout)
    obtain rfl : path' = pathOf h (h.attempts + 1) := (Except.ok.inj hanswer).trans hpath
    exact ⟨v, rfl, hv, hstands, hempty⟩

theorem progresses_of_isReady (c : Config) (driver : String)
    (hready : IsReady h (fileName args) T)
    (hways : ∀ m ∈ (compile c driver args).history runner h, m.event.call?.isSome →
      m.before.SameWays m.after) :
    Progresses (pathOf h (h.attempts + 1)) (T ++ [nameOf (h.attempts + 1)])
      ((compile c driver args).history runner h) := by
  have hp := passes_history runner (compile c driver args) h
  have hfollows : Follows (compile c driver args)
    (((compile c driver args).history runner h).map (·.event)) _ := follows_events runner _ h
  generalize (compile c driver args).history runner h = ms at hways hp hfollows ⊢
  obtain ⟨v, rfl, hv, hstands, hempty⟩ := visit_of_isReady hready hp hfollows
  have hinside := created_inside hready hstands hempty hv.passes hv.inWorkspace
    (fun m hm => hways m (v.inside_subset hm)) hv.follows
  constructor
  · intro m hm answer hevent
    obtain rfl := hv.eq_making hm hevent
    cases hevent.symm.trans hv.making
    exact ⟨rfl, hstands.direct⟩
  · exact fun m hm directory name answer hevent =>
      hinside m (hv.mem_inside hm hevent) directory name answer hevent

/-- A runner that answers, or is refused by the operating system, and leaves the machine as it is. -/
structure IsDetached (runner : Runner) : Prop where
  leaves : ∀ command environment h, (outcome (runner command environment) h).2 = h
  refuses : ∀ command environment h fault,
    (outcome (runner command environment) h).1 = .error fault → ∃ e, fault = .os e

/-- A launch by such a runner does nothing but get noted. -/
theorem IsDetached.after_eq (hdetached : IsDetached runner) {m : Moment}
    (hout : m.event.step.outcome runner m.before = (m.event.answer, m.after))
    (hcall : m.event.call?.isSome) : ∃ noted, m.after = { m.before with launches := noted } := by
  obtain ⟨h, ⟨s, answer⟩, h'⟩ := m
  cases s with
  | launch command environment =>
    dsimp only at hout ⊢
    rw [Step.outcome_launch] at hout
    obtain ⟨-, rfl⟩ := Prod.mk.inj hout
    exact ⟨_, by rw [hdetached.leaves]⟩
  | _ => exact nomatch hcall

theorem IsDetached.sameWays (hdetached : IsDetached runner) {ms : List Moment}
    (hp : Passes runner h ms h') :
    ∀ m ∈ ms, m.event.call?.isSome → m.before.SameWays m.after := by
  intro m hm hcall
  obtain ⟨noted, hafter⟩ := hdetached.after_eq (hp.outcome_of_mem hm) hcall
  rw [hafter]
  exact ⟨rfl, rfl, rfl, rfl, fun _ _ hx _ => hx, fun _ _ hx _ => hx⟩

/-- On a machine that is ready for it such a runner is all that can stop a run. -/
theorem onlyLaunchesRefused_of_isReady (hready : IsReady h (fileName args) T)
    (hdetached : IsDetached runner) (hcompile : args.has SourceFile.compileFlag = true) :
    OnlyLaunchesRefused ((work c driver args).events runner h) := by
  have hp := passes_history runner (compile c driver args) h
  have hprogress := progresses_of_isReady c driver hready (hdetached.sameWays hp)
  have hwork : (work c driver args).history runner h = (compile c driver args).history runner h := by
    simp only [work, hcompile, Bool.not_true, Bool.false_eq_true, ↓reduceIte]
    exact history_bind_pure runner (compile c driver args) (fun _ => (0 : Int)) h
  intro s fault hmem
  rw [events, hwork] at hmem
  obtain ⟨m, hm, hevent⟩ := List.mem_map.mp hmem
  have hout := hp.outcome_of_mem hm
  rw [hevent] at hout
  cases s with
  | makeWorkspace => cases (hprogress.made m hm _ hevent).1
  | createFile directory name => cases (hprogress.created m hm _ _ _ hevent).2
  | launch command environment =>
    rw [Step.outcome_launch] at hout
    obtain ⟨e, rfl⟩ := hdetached.refuses _ _ _ _ (Prod.mk.inj hout).1
    exact ⟨command, environment, e, rfl, rfl⟩
  | releaseWorkspace | environment | echo | log =>
    exact (Step.canFail_of_outcome (congrArg Prod.fst hout)).elim

/-- Every command succeeds and prints nothing. -/
def succeeding : Runner := fun _ _ => return ⟨0, []⟩

theorem isDetached_succeeding : IsDetached succeeding where
  leaves _ _ _ := rfl
  refuses _ _ _ _ hf := nomatch hf

theorem isReady_oneDriver : IsReady oneDriver "a.c" ["tmp"] :=
  isReady_fresh [] (by decide +kernel) rfl (by decide +kernel)

end BitcodeWrapper.Pipeline
