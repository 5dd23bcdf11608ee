import BitcodeWrapper.Proofs.Job.Within
import BitcodeWrapper.Proofs.Pipeline.Handover
import BitcodeWrapper.Proofs.Workspace.Site

/-! A compile step keeps to its workspace: as long as it gets the paths that it asks for, all files that it
makes, passes on and takes away lie in the one directory that it was given. -/
namespace BitcodeWrapper.Pipeline
open Job Workspace

variable {c : Config} {driver path stage : String} {args : Arguments} {command : List String}
  {allowed : List (List String)}

/-- The file that stage two writes, called after the one that it reads. -/
def optimizedFile (path : String) (args : Arguments) : String :=
  Path.join path (Path.stem (bitcodeIn path (fileName args)) ++ ".opt.bc")

/-- All commands that a compile step can launch with its workspace at that path. -/
def launchable (c : Config) (driver : String) (args : Arguments) (path : String) : List (List String) :=
  (driver :: args) :: commands c driver args (bitcodeIn path (fileName args)) (optimizedFile path args)

/-- A record is none of the steps that matter. -/
theorem within_log_bind {α : Type} {R : α → Prop} {level : Log.Level} {message : String}
    {f : Unit → Job α} (hf : Within (IsOwnStep path allowed) (IsOwnAnswer path) R (f ())) :
    Within (IsOwnStep path allowed) (IsOwnAnswer path) R (log level message >>= f) := by
  have hlog : Within (IsOwnStep path allowed) (IsOwnAnswer path) (fun _ => True) (log level message) :=
    within_ask (s := .log level message) trivial
  exact within_bind hlog fun _ _ => hf

theorem within_runStage (hcommand : command ∈ allowed) (stage : String) (isDryRun : Bool)
    (environment : Option Bindings) :
    Within (IsOwnStep path allowed) (IsOwnAnswer path) (fun _ => True)
      (runStage stage command isDryRun environment) := by
  refine within_log_bind ?_
  cases isDryRun with
  | true => exact within_log_bind (within_pure trivial)
  | false =>
    have hlaunch : Within (IsOwnStep path allowed) (IsOwnAnswer path) (fun _ => True)
        (Job.launch command environment) := within_ask (s := .launch command environment) hcommand
    refine within_bind (within_attempt hlaunch) fun answer _ => ?_
    exact (only_settle (fun _ => trivial) stage command answer).within

/-- The record of a real run makes no difference to what is handed on. -/
theorem within_record {isDryRun : Bool} {level : Log.Level} {message : String} {α : Type} {R : α → Prop}
    {a : α} (ha : R a) :
    Within (IsOwnStep path allowed) (IsOwnAnswer path) R
      (if (!isDryRun) = true then log level message >>= fun _ => pure a else pure a) := by
  split
  · exact within_log_bind (within_pure ha)
  · exact within_pure ha

theorem within_emitBitcode (hsource : '$' ∉ (fileName args).toList)
    (hcommand : driver :: StageCommand.emitBitcode args (bitcodeIn path (fileName args)) ∈ allowed)
    (isDryRun : Bool) :
    Within (IsOwnStep path allowed) (IsOwnAnswer path) (· = bitcodeIn path (fileName args))
      (emitBitcode (fileName args) driver args path isDryRun) := by
  have hname : IsOwnStep path allowed (.createFile path (fileName args ++ ".bc")) :=
    ⟨rfl, isPlain_bitcode args, notMem_append hsource (by decide)⟩
  refine within_bind (within_ask hname) fun bitcode hbitcode => ?_
  obtain rfl : bitcode = bitcodeIn path (fileName args) := hbitcode
  refine within_log_bind ?_
  exact within_bind (within_runStage hcommand _ isDryRun none) fun _ _ => within_record rfl

theorem within_schedulePasses (hpath : '$' ∉ path.toList) (hsource : '$' ∉ (fileName args).toList)
    (hcommand : c.optimizer :: StageCommand.schedulePasses c.optimizerArguments
      (bitcodeIn path (fileName args)) (optimizedFile path args) ∈ allowed) (isDryRun : Bool) :
    Within (IsOwnStep path allowed) (IsOwnAnswer path) (· = optimizedFile path args)
      (schedulePasses (fileName args) c (bitcodeIn path (fileName args)) path isDryRun) := by
  have hdollar : '$' ∉ (bitcodeIn path (fileName args)).toList :=
    notMem_join (by decide) hpath (notMem_append hsource (by decide))
  have hname : IsOwnStep path allowed
      (.createFile path (Path.stem (bitcodeIn path (fileName args)) ++ ".opt.bc")) :=
    ⟨rfl, isPlain_optimized _, notMem_append (notMem_stem hdollar) (by decide)⟩
  refine within_bind (within_ask hname) fun optimized hoptimized => ?_
  obtain rfl : optimized = optimizedFile path args := hoptimized
  have hown : Within (IsOwnStep path allowed) (IsOwnAnswer path) (fun _ => True) Job.environment :=
    within_ask (s := .environment) trivial
  refine within_log_bind (within_bind hown fun own _ => ?_)
  exact within_bind (within_runStage hcommand _ isDryRun _) fun _ _ => within_record rfl

theorem within_buildBitcode {optimized : String}
    (hcommand : driver :: StageCommand.buildBitcode args optimized ∈ allowed) (isDryRun : Bool) :
    Within (IsOwnStep path allowed) (IsOwnAnswer path) (fun _ => True)
      (buildBitcode driver optimized args isDryRun) := by
  rw [buildBitcode]
  dsimp only
  split
  · exact .failed
  · refine within_log_bind ?_
    exact within_bind (within_runStage hcommand _ isDryRun none) fun _ _ => within_record trivial

/-- The stages hand the two files on under their paths in the workspace. -/
theorem within_stages (c : Config) (driver : String) (hpath : '$' ∉ path.toList)
    (hsource : '$' ∉ (fileName args).toList) :
    Within (IsOwnStep path (launchable c driver args path)) (IsOwnAnswer path) (fun _ => True)
      (stages c driver (fileName args) args path) := by
  have hemit : driver :: StageCommand.emitBitcode args (bitcodeIn path (fileName args)) ∈
      launchable c driver args path := .tail _ (.head _)
  have hschedule : c.optimizer :: StageCommand.schedulePasses c.optimizerArguments
      (bitcodeIn path (fileName args)) (optimizedFile path args) ∈ launchable c driver args path :=
    .tail _ (.tail _ (.head _))
  have hbuild : driver :: StageCommand.buildBitcode args (optimizedFile path args) ∈
      launchable c driver args path := .tail _ (.tail _ (.tail _ (.head _)))
  refine within_bind (within_emitBitcode hsource hemit _) ?_
  rintro _ rfl
  refine within_bind (within_schedulePasses hpath hsource hschedule _) fun optimized hoptimized => ?_
  rw [hoptimized]
  refine within_bind (within_buildBitcode hbuild _) fun object _ => ?_
  split
  · refine within_log_bind ?_
    exact within_bind (within_runStage List.mem_cons_self _ false none) fun _ _ => within_pure trivial
  · exact within_pure trivial

/-- What is done in a workspace is done in the one that is given. -/
theorem within_withWorkspace {α : Type} {body : String → Job α} (retain : Bool)
    (hbody : Within (IsOwnStep path allowed) (IsOwnAnswer path) (fun _ => True) (body path)) :
    Within (IsOwnStep path allowed) (IsOwnAnswer path) (fun _ => True) (withWorkspace retain body) := by
  have hmake : Within (IsOwnStep path allowed) (IsOwnAnswer path) (· = path) makeWorkspace :=
    within_ask (s := .makeWorkspace) trivial
  have hrelease : Within (IsOwnStep path allowed) (IsOwnAnswer path) (fun _ => True)
      (releaseWorkspace retain path) := within_ask (s := .releaseWorkspace retain path) rfl
  refine within_bind hmake ?_
  rintro _ rfl
  refine within_bind (within_attempt hbody) fun result _ => within_bind hrelease fun _ _ => ?_
  exact within_ofExcept fun _ _ => trivial

/-- A compile step makes, passes on and removes nothing outside its workspace. -/
theorem within_compile (c : Config) (driver : String) (hpath : '$' ∉ path.toList)
    (hsource : '$' ∉ (fileName args).toList) :
    Within (IsOwnStep path (launchable c driver args path)) (IsOwnAnswer path) (fun _ => True)
      (compile c driver args) := by
  refine within_log_bind ?_
  have hname : Within (IsOwnStep path (launchable c driver args path)) (IsOwnAnswer path)
      (· = fileName args) (sourceName args) := by
    rw [sourceName]
    dsimp only
    split <;> exact within_log_bind (within_pure rfl)
  refine within_bind hname ?_
  rintro _ rfl
  have hstages := within_withWorkspace c.retainsWorkspace (within_stages c driver hpath hsource)
  exact within_bind hstages fun object _ => within_log_bind (within_pure trivial)

/-- What there is of a workspace at the end: itself if it is retained, and nothing otherwise. -/
def Leaves (retain : Bool) (W : Location) (fs : Files) : Prop :=
  if retain then fs.get? W = some .directory else ∀ x, W <+: x → fs.get? x = none

theorem Leaves.congr {retain : Bool} {W : Location} {fs fs' : Files} (hl : Leaves retain W fs)
    (hsame : ∀ x, W <+: x → fs'.get? x = fs.get? x) : Leaves retain W fs' := by
  cases retain with
  | true => exact (hsame W List.prefix_rfl).trans hl
  | false => exact fun x hx => (hsame x hx).trans (hl x hx)

/-- A workspace that its path leads to is retained or removed. -/
theorem leaves_of_release {runner : Runner} {h h' k : Host} {W : Location} {retain : Bool}
    (hleads : h.Leads path W) (hroot : W ≠ [])
    (hrelease : (Step.releaseWorkspace retain path).outcome runner h = (.ok (), h'))
    (hr : Host.RecordsTo h' k) : Leaves retain W k.files := by
  cases retain with
  | true =>
    rw [Step.outcome_retain] at hrelease
    obtain ⟨-, rfl⟩ := Prod.mk.inj hrelease
    have hkept : Files.Kept (h.files.get? W) (k.files.get? W) := hr.kept W
    rw [hleads.get?] at hkept
    exact hkept.eq_passage trivial
  | false =>
    have hleads' := hleads.of_recordsTo (.single h (h.ownRecord .debug ("Removing temp dir " ++ path)))
    rw [Step.outcome_remove] at hrelease
    generalize h.accept (h.ownRecord .debug ("Removing temp dir " ++ path)) = h₁ at hleads' hrelease
    rw [Host.Leads] at hleads'
    simp only [hleads'] at hrelease
    obtain ⟨-, rfl⟩ := Prod.mk.inj hrelease
    intro x hx
    have hkept : Files.Kept ((h₁.files.remove W).get? x) (k.files.get? x) := hr.kept x
    rw [Files.get?_remove _ _ _ hroot, if_pos (List.isPrefixOf_iff_prefix.mpr hx)] at hkept
    exact hkept.eq_none

/-- What a compile step leaves of the workspace that it was given. -/
theorem leaves_of_compile {runner : Runner} {h h' : Host} {W : Location} {ms : List Moment}
    {r : Except Fault String} (hs : Files.IsSite path W) (hc : h.files.IsClear W)
    (hways : ∀ m ∈ ms, m.event.call?.isSome → m.before.SameWays m.after) (hp : Passes runner h ms h')
    (hfollows : Follows (compile c driver args) (ms.map (·.event)) r)
    (hgiven : ∀ m ∈ ms, IsGiven path m.event) : Leaves c.retainsWorkspace W h'.files := by
  have hevents : ∀ e ∈ ms.map (·.event), IsGiven path e := List.forall_mem_map.mpr hgiven
  obtain ⟨after, hafter, ⟨fault, -, he⟩ | ⟨path', body, hbody, he⟩⟩ := parts_of_follows_compile hfollows
  · rw [he] at hevents
    exact nomatch hevents ⟨.makeWorkspace, .error fault⟩ (by simp) _ rfl
  · rw [he] at hevents
    obtain rfl : path' = path :=
      Except.ok.inj (hevents ⟨.makeWorkspace, .ok path'⟩ (by simp [throughWorkspace]) _ rfl)
    obtain ⟨first, inside, last, ha, hb, hc', hd, rfl, -, rfl, -, hrecords, hmake, hpassed, hrelease, hlast⟩ :=
      passes_throughWorkspace hp he (isRecord_first c args) fun e he => (hafter e he).isRecord
    have hmade : IsMade ha path' W hb := isMade_of_isClear hs (hc.of_kept hrecords.kept) hmake
    have hin := hbody.only (only_stages c driver args path')
    have hkept : hb.SameWays hc' := by
      refine (hpassed.keeps (I := hb.SameWays) (fun m hm hout hw => ?_) (.refl hb)).2
      exact hw.trans (sameWays_of_outcome (hin _ (List.mem_map_of_mem hm)) hout (hways m (by simp [hm])))
    have hleads := hmade.leads.of_keepsPassages hkept.here hkept.keeps
    exact leaves_of_release hleads hs.nonroot hrelease hlast

end BitcodeWrapper.Pipeline
