import BitcodeWrapper.Proofs.Job.Calls
import BitcodeWrapper.Proofs.Workspace.Place

/-! A workspace from its making to its release. What its job does keeps it in its place and leaves the
rest of the temporary directory alone, as long as the runner does. -/
namespace BitcodeWrapper.Workspace
open BitcodeWrapper.Action Files Job

variable {runner : Runner} {h h' h₀ : Host} {path : String} {T W : Location}

/-- A launch that leaves the rest of a directory alone: outside the workspaces nothing changes, and
these stay in their places. -/
structure LeavesRestAlone (paths : List String) (T : Location) (m : Moment) : Prop where
  rest : ∀ x, T <+: x → (∀ path ∈ paths, ∀ W, m.before.Leads path W → ¬ W <+: x) →
    m.after.files.get? x = m.before.files.get? x
  stays : ∀ path ∈ paths, ∀ W, m.before.Leads path W → m.after.Leads path W

/-- Where a link stands under the very name that a file is made under, the file does not come to stand in the
rest of the directory. -/
def LinkStaysInside (T : Location) (m : Moment) : Prop :=
  ∀ path name answer, m.event = ⟨.createFile path name, answer⟩ → ∀ W, m.before.Leads path W →
    ∀ target, m.before.files.get? (W ++ [name]) = some (.link target) → ∀ found,
      m.before.files.find m.before.here true (Path.join path name) = .ok found →
      T <+: found.location → W <+: found.location

/-- The steps of a job in a workspace: its files are made there, under plain names. -/
def InWorkspace (path : String) : Step → Prop
  | .createFile directory name => directory = path ∧ IsPlain name
  | .makeWorkspace | .releaseWorkspace _ _ => False
  | .launch _ _ | .environment | .echo _ | .log _ _ => True

/-- A workspace in its place, with the rest as it was on the machine `h₀`. -/
structure Intact (h₀ : Host) (T W : Location) (path : String) (h : Host) : Prop where
  leads : h.Leads path W
  rest : ∀ x, T <+: x → ¬ W <+: x → Kept (h₀.files.get? x) (h.files.get? x)

theorem Intact.of_recordsTo (hi : Intact h₀ T W path h) (hr : Host.RecordsTo h h') :
    Intact h₀ T W path h' where
  leads := hi.leads.of_recordsTo hr
  rest x hT hW := (hi.rest x hT hW).trans (hr.kept x)

theorem Intact.of_differsAt {files : Files} {loc : Location} (hi : Intact h₀ T W path h)
    (hin : T <+: loc → W <+: loc) (hd : DiffersAt h.files files loc) :
    Intact h₀ T W path { h with files := files } where
  leads := hi.leads.of_keepsPassages rfl hd.keeps
  rest x hT hW := by
    have hx : x ≠ loc := by
      rintro rfl
      exact hW (hin hT)
    exact (hd.elsewhere x hx).symm ▸ hi.rest x hT hW

/-- The file that is made under a plain name stands in the workspace, unless a link leads elsewhere. -/
theorem Intact.prefix_of_find {m : Moment} {name : String} {answer : Except Fault String} {loc : Location}
    {e : Option Entry} (hi : Intact h₀ T W path m.before) (hname : IsPlain name)
    (hevent : m.event = ⟨.createFile path name, answer⟩) (hlink : LinkStaysInside T m)
    (hfind : m.before.files.find m.before.here true (Path.join path name) = .ok ⟨loc, e⟩)
    (hT : T <+: loc) : W <+: loc := by
  by_cases hlinked : ∃ target, m.before.files.get? (W ++ [name]) = some (.link target)
  · obtain ⟨target, hlinked⟩ := hlinked
    exact hlink path name answer hevent W hi.leads target hlinked _ hfind hT
  · have hplace := find_join hi.leads hname (fun _ => not_exists.mp hlinked) hfind
    obtain rfl : loc = W ++ [name] := congrArg Found.location hplace
    exact List.prefix_append W [name]

/-- Each step of a job in a workspace keeps it in its place. -/
theorem Intact.step {m : Moment} (hi : Intact h₀ T W path m.before)
    (hin : InWorkspace path m.event.step)
    (hout : m.event.step.outcome runner m.before = (m.event.answer, m.after))
    (halone : m.event.call?.isSome → LeavesRestAlone [path] T m) (hlink : LinkStaysInside T m) :
    Intact h₀ T W path m.after := by
  obtain ⟨h, ⟨s, answer⟩, h'⟩ := m
  dsimp only at hi hin hout ⊢
  cases s with
  | makeWorkspace => exact hin.elim
  | releaseWorkspace retain path => exact hin.elim
  | createFile directory name =>
    obtain ⟨rfl, hname⟩ := hin
    obtain ⟨rfl, -⟩ | ⟨files, loc, e, rfl, hfind, hd, -⟩ := differsAt_of_createFile hout
    · exact hi
    · exact hi.of_differsAt (hi.prefix_of_find hname rfl hlink hfind) hd
  | launch command environment =>
    have hl := halone rfl
    have hsingle : path ∈ [path] := List.mem_singleton_self path
    refine ⟨hl.stays path hsingle W hi.leads, fun x hT hW => ?_⟩
    have hsame := hl.rest x hT fun path' hpath' W' hW' => by
      obtain rfl := List.mem_singleton.mp hpath'
      obtain rfl : W' = W := congrArg Found.location (Except.ok.inj (hW'.symm.trans hi.leads))
      exact hW
    exact hsame ▸ hi.rest x hT hW
  | environment =>
    cases hout
    exact hi
  | echo output =>
    cases hout
    exact ⟨hi.leads, hi.rest⟩
  | log level message =>
    cases hout
    exact hi.of_recordsTo (.single h _)

end BitcodeWrapper.Workspace
