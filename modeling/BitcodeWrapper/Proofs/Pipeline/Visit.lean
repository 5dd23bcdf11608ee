import BitcodeWrapper.Proofs.Pipeline.Course

/-! The machines that a compile step stands at: before its workspace is made, in it, and after it is
released. -/
namespace BitcodeWrapper.Pipeline
open BitcodeWrapper.Action Job Workspace

variable {runner : Runner} {c : Config} {driver path : String} {args : Arguments}
  {r : Except Fault String} {h h' : Host} {ms : List Moment} {m : Moment}

/-- The moments of a run with a workspace. -/
structure Visit where
  first : List Moment
  making : Moment
  inside : List Moment
  releasing : Moment
  last : List Moment

namespace Visit
variable {v : Visit}

def moments (v : Visit) : List Moment :=
  v.first ++ ([v.making] ++ (v.inside ++ ([v.releasing] ++ v.last)))

/-- Between records the workspace is made, the stages go on in it, and it is released. -/
structure Occurs (v : Visit) (runner : Runner) (c : Config) (driver : String) (args : Arguments)
    (h : Host) (path : String) (r : Except Fault String) : Prop where
  first : ∀ m ∈ v.first, IsRecord m.event
  last : ∀ m ∈ v.last, IsRecord m.event
  making : v.making.event = ⟨.makeWorkspace, .ok path⟩
  releasing : v.releasing.event = ⟨.releaseWorkspace c.retainsWorkspace path, .ok ()⟩
  before : Host.RecordsTo h v.making.before
  make : outcome Workspace.make v.making.before = (.ok path, v.making.after)
  passes : Passes runner v.making.after v.inside v.releasing.before
  follows : Follows (stages c driver (fileName args) args path) (v.inside.map (·.event)) r

theorem making_mem (v : Visit) : v.making ∈ v.moments := by simp [moments]

theorem inside_subset (v : Visit) : v.inside ⊆ v.moments :=
  fun m hm => by simp [moments, hm]

namespace Occurs

/-- Files and commands are those of the stages. -/
theorem inWorkspace (hv : v.Occurs runner c driver args h path r) :
    ∀ m ∈ v.inside, InWorkspace path m.event.step :=
  fun _ hm => hv.follows.only (only_stages c driver args path) _ (List.mem_map_of_mem hm)

/-- What is drawn neither from records nor from the making and the release is drawn from the stages. -/
theorem filterMap_eq (hv : v.Occurs runner c driver args h path r) {α : Type} {f : Event → Option α}
    (hrecord : ∀ level message, f ⟨.log level message, .ok ()⟩ = none)
    (hmake : ∀ path, f ⟨.makeWorkspace, .ok path⟩ = none)
    (hrelease : ∀ retain path, f ⟨.releaseWorkspace retain path, .ok ()⟩ = none) :
    (v.moments.map (·.event)).filterMap f = (v.inside.map (·.event)).filterMap f := by
  have hrecords : ∀ ms : List Moment, (∀ m ∈ ms, IsRecord m.event) →
      (ms.map (·.event)).filterMap f = [] := by
    intro ms hms
    refine List.filterMap_eq_nil_iff.mpr (List.forall_mem_map.mpr fun m hm => ?_)
    obtain ⟨level, message, hevent⟩ := hms m hm
    rw [hevent, hrecord]
  simp only [moments, List.map_append, List.filterMap_append, List.map_cons, List.map_nil, hv.making,
    hv.releasing, hrecords _ hv.first, hrecords _ hv.last, List.filterMap_cons, hmake, hrelease,
    List.filterMap_nil, List.nil_append, List.append_nil]

theorem calls_eq (hv : v.Occurs runner c driver args h path r) :
    calls (v.moments.map (·.event)) = calls (v.inside.map (·.event)) :=
  hv.filterMap_eq (fun _ _ => rfl) (fun _ => rfl) fun _ _ => rfl

theorem files_eq (hv : v.Occurs runner c driver args h path r) :
    files (v.moments.map (·.event)) = files (v.inside.map (·.event)) :=
  hv.filterMap_eq (fun _ _ => rfl) (fun _ => rfl) fun _ _ => rfl

/-- The workspace is made at one moment. -/
theorem eq_making (hv : v.Occurs runner c driver args h path r) (hm : m ∈ v.moments)
    {answer : Except Fault String} (hevent : m.event = ⟨.makeWorkspace, answer⟩) : m = v.making := by
  rcases cases_of_mem (List.forall_mem_map.mpr hv.first) (List.forall_mem_map.mpr hv.last) hm with
    ⟨level, message, hrecord⟩ | rfl | hm | rfl
  · cases hevent.symm.trans hrecord
  · rfl
  · have hin := hv.inWorkspace m hm
    rw [hevent] at hin
    exact hin.elim
  · cases hevent.symm.trans hv.releasing

/-- Files are made between the making and the release. -/
theorem mem_inside (hv : v.Occurs runner c driver args h path r) (hm : m ∈ v.moments)
    {directory name : String} {answer : Except Fault String}
    (hevent : m.event = ⟨.createFile directory name, answer⟩) : m ∈ v.inside := by
  rcases cases_of_mem (List.forall_mem_map.mpr hv.first) (List.forall_mem_map.mpr hv.last) hm with
    ⟨level, message, hrecord⟩ | rfl | hm | rfl
  · cases hevent.symm.trans hrecord
  · cases hevent.symm.trans hv.making
  · exact hm
  · cases hevent.symm.trans hv.releasing

end Occurs

end Visit

/-- A compile step is refused its workspace and makes no files, or it visits it. -/
theorem visit_of_passes_compile (hp : Passes runner h ms h')
    (hfollows : Follows (compile c driver args) (ms.map (·.event)) r) :
    (files (ms.map (·.event)) = [] ∧ ∃ m ∈ ms, ∃ fault, m.event = ⟨.makeWorkspace, .error fault⟩ ∧
      Host.RecordsTo h m.before ∧ outcome Workspace.make m.before = (.error fault, m.after)) ∨
    ∃ (v : Visit) (path : String), ms = v.moments ∧ v.Occurs runner c driver args h path r := by
  obtain ⟨after, hafter, ⟨fault, -, he⟩ | ⟨path, body, hbody, he⟩⟩ := parts_of_follows_compile hfollows
  · obtain ⟨first, ms', ha, rfl, hfirst, he', hp₁, hp'⟩ := hp.split he
    obtain ⟨making, last, hb, rfl, heMaking, -, hp₂, -⟩ := hp'.split he'
    obtain ⟨rfl, hmake⟩ := hp₂.single heMaking
    have hrecords := recordsTo_of_passes hp₁ fun m hm =>
      isRecord_first c args _ (hfirst ▸ List.mem_map_of_mem hm)
    exact .inl ⟨he ▸ files_unmade hafter, ⟨ha, ⟨.makeWorkspace, .error fault⟩, hb⟩, by simp, fault,
      rfl, hrecords, hmake⟩
  · have hrecord : ∀ e ∈ after, IsRecord e := fun e he => (hafter e he).isRecord
    obtain ⟨first, inside, last, ha, hb, hc, hd, rfl, hfirst, rfl, rfl, hrecords, hmake, hpassed, -,
      -⟩ := passes_throughWorkspace hp he (isRecord_first c args) hrecord
    refine .inr ⟨⟨first, ⟨ha, _, hb⟩, inside, ⟨hc, _, hd⟩, last⟩, path, rfl, ?_⟩
    exact ⟨List.forall_mem_map.mp (hfirst ▸ isRecord_first c args), List.forall_mem_map.mp hrecord,
      rfl, rfl, hrecords, hmake, hpassed, hbody⟩

end BitcodeWrapper.Pipeline
