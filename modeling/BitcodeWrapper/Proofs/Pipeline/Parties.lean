import BitcodeWrapper.Proofs.Job.Pool
import BitcodeWrapper.Proofs.Pipeline.Confined

/-! Compile steps that share a machine. Each of them owns its workspace and the places where its object files go,
and changes nothing that another one owns. -/
namespace BitcodeWrapper.Pipeline
open BitcodeWrapper.Action Files Host Job Workspace

/-- One of several compile steps: what it is asked to do, its own side of the machine, the place of its
workspace, and the places outside that its commands write to. -/
structure Party where
  runner : Runner
  config : Config
  driver : String
  args : Arguments
  host : Host
  place : Location
  objects : Set Location

namespace Party

def path (p : Party) : String := Location.text p.place

def job (p : Party) : Job String := compile p.config p.driver p.args

def commands (p : Party) : List (List String) := launchable p.config p.driver p.args p.path

/-- The two files that its stages hand on. -/
def outputs (p : Party) : List String := [bitcodeIn p.path (fileName p.args), optimizedFile p.path p.args]

/-- A job that keeps to its workspace and launches its own commands only. -/
def Keeps (p : Party) (j : Job String) : Prop :=
  Within (IsOwnStep p.path p.commands) (IsOwnAnswer p.path) (fun _ => True) j

def owned (p : Party) : Set Location := {x | p.place <+: x ∨ x ∈ p.objects}

/-- Its machine if nobody else is there. Its counter of workspaces may stand elsewhere then. -/
def alone (p : Party) (start : Files) (attempts : Nat) : Host :=
  { p.host with files := start, attempts := attempts }

/-- All that happens if nobody else is there. -/
def history (p : Party) (start : Files) (attempts : Nat) : List Moment :=
  p.job.history p.runner (p.alone start attempts)

/-- What comes of it if nobody else is there, and the machine that it leaves. -/
def outcomeAlone (p : Party) (start : Files) (attempts : Nat) : Except Fault String × Host :=
  outcome (p.job.run p.runner) (p.alone start attempts)

end Party

variable {ι : Type} {ps : ι → Party} {T : Location} {start fs : Files} {i k : ι} {h h' : Host} {j : Job String}

/-- Everything below the place of a workspace. -/
def workspaces (ps : ι → Party) : Set Location := {x | ∃ i, (ps i).place <+: x}

/-- The copies of logs. -/
def copies (ps : ι → Party) : Set Location := {x | ∃ i, (ps i).host.logging.copyTo = some x}

/-- All that the others own. -/
def others (ps : ι → Party) (i : ι) : Set Location := {x | ∃ k, k ≠ i ∧ x ∈ (ps k).owned}

/-- Where compile steps that share a directory for workspaces have what they own. Their workspaces are different
directories in it, with paths that spell out where they are and hold no variables; what lies elsewhere belongs
to one of them at most. -/
structure Placed (ps : ι → Party) (T : Location) (start : Files) : Prop where
  temporary : ∀ x, x <+: T → start.get? x = some .directory
  inside : ∀ i, ∃ name, (ps i).place = T ++ [name]
  differ : ∀ i k, (ps i).place = (ps k).place → i = k
  plain : ∀ i, ∀ name ∈ (ps i).place, IsPlain name
  free : ∀ i x, (ps i).place <+: x → start.get? x = none
  noVariable : ∀ i, '$' ∉ (ps i).path.toList ∧ '$' ∉ (fileName (ps i).args).toList
  objects : ∀ i k, i ≠ k → ∀ x ∈ (ps i).objects, x ∉ (ps k).owned
  logs : ∀ x ∈ copies ps, ∀ i, x ∉ (ps i).owned

namespace Placed

theorem site (hs : Placed ps T start) (i : ι) : IsSite (ps i).path (ps i).place where
  text := ⟨rfl, hs.plain i⟩
  nonroot := by
    obtain ⟨name, hname⟩ := hs.inside i
    simp [hname]
  noVariable := (hs.noVariable i).1

theorem outputs_join (i : ι) : ∀ file ∈ (ps i).outputs, ∃ name, IsPlain name ∧
    file = Path.join (ps i).path name := by
  intro file hfile
  rcases List.mem_cons.mp hfile with rfl | hfile
  · exact ⟨_, isPlain_bitcode _, rfl⟩
  · exact ⟨_, isPlain_optimized _, List.mem_singleton.mp hfile⟩

/-- No workspace lies in another one. -/
theorem not_prefix (hs : Placed ps T start) {x : Location} (hi : (ps i).place <+: x)
    (hk : (ps k).place <+: x) : i = k := by
  apply hs.differ i k
  obtain ⟨name, hname⟩ := hs.inside i
  obtain ⟨name', hname'⟩ := hs.inside k
  refine (List.prefix_of_prefix_length_le hi hk ?_).eq_of_length ?_ <;> simp [hname, hname']

theorem eq_of_owned (hs : Placed ps T start) {x : Location} (hi : x ∈ (ps i).owned)
    (hk : x ∈ (ps k).owned) : i = k := by
  by_contra hne
  rcases hi with hi | hi
  · rcases hk with hk | hk
    · exact hne (hs.not_prefix hi hk)
    · exact hs.objects k i (Ne.symm hne) x hk (.inl hi)
  · exact hs.objects i k hne x hi hk

/-- What one owns is neither owned by others nor a copy of a log. -/
theorem own (hs : Placed ps T start) {x : Location} (hx : x ∈ (ps i).owned) :
    x ∉ others ps i ∧ x ∉ copies ps := by
  constructor
  · rintro ⟨k, hne, hk⟩
    exact hne (hs.eq_of_owned hk hx)
  · exact fun hcopy => hs.logs x hcopy i hx

/-- Directories lead to the place of a workspace as long as all ways but those in workspaces are kept. -/
theorem isClear (hs : Placed ps T start) (hw : WaysOff (workspaces ps) start fs) (i : ι) :
    fs.IsClear (ps i).place := by
  refine hw.isClear (fun x hx hne => ?_) fun x hx target => by rw [hs.free i x hx]; exact nofun
  obtain ⟨name, hname⟩ := hs.inside i
  have hT : x <+: T := by
    rw [hname] at hx hne
    exact (List.prefix_concat_iff.mp hx).resolve_left hne
  refine ⟨?_, hs.temporary x hT⟩
  rintro ⟨k, hk⟩
  obtain ⟨name', hname'⟩ := hs.inside k
  have hlength := (hk.trans hT).length_le
  rw [hname', List.length_append, List.length_singleton] at hlength
  omega

theorem waysOff_start (hs : Placed ps T start) : WaysOff (workspaces ps) start start where
  passages _ _ _ _ := Iff.rfl
  noLinks := by
    rintro x ⟨i, hx⟩ target
    rw [hs.free i x hx]
    exact nofun

theorem keeps_job (hs : Placed ps T start) (i : ι) : (ps i).Keeps (ps i).job :=
  within_compile (ps i).config (ps i).driver (hs.noVariable i).1 (hs.noVariable i).2

end Placed

/-- What is taken for granted of compile steps that share a machine. Each has its places, its commands write only
where they are told to and in these places, and they do not read what others write. -/
structure Share (ps : ι → Party) (T : Location) (start : Files) : Prop where
  placed : Placed ps T start
  writes : ∀ i, ∀ command ∈ (ps i).commands,
    (ps i).runner.WritesNamed start (workspaces ps) (ps i).outputs (ps i).objects command
  heedless : ∀ i, ∀ command ∈ (ps i).commands,
    (ps i).runner.IsHeedless start (workspaces ps) (others ps i) (copies ps) command

section writing
variable {command outputs : List String} {fs₀ : Files} {inside apart copied objects : Set Location}
  {W x : Location} {names : List String}

/-- Every command makes its output file anew, and fails where it cannot. -/
def writing : Runner := fun command _ => do
  let h ← get
  match openForWriting h.files h.here false (Arguments.valueOf command StageCommand.outputFlag) with
  | .ok (fs, _) =>
    set ({ h with files := fs } : Host)
    return ⟨0, []⟩
  | .error _ => return ⟨1, []⟩

theorem outcome_writing (command : List String) (environment : Option Bindings) (h : Host) :
    outcome (writing command environment) h =
      match h.files.openForWriting h.here false (Arguments.valueOf command StageCommand.outputFlag) with
      | .ok (fs, _) => (.ok ⟨0, []⟩, { h with files := fs })
      | .error _ => (.ok ⟨1, []⟩, h) := by
  simp only [writing, outcome_bind, outcome_get]
  rcases h.files.openForWriting h.here false (Arguments.valueOf command StageCommand.outputFlag) with
    e | ⟨files, loc⟩ <;> rfl

theorem keepsCount_writing : writing.KeepsCount := by
  intro command environment h
  rw [outcome_writing]
  split <;> rfl

/-- Its output is all that such a command writes to. -/
theorem writesNamed_writing (hvalue : Arguments.valueOf command StageCommand.outputFlag ∈ command)
    (hplace : Arguments.valueOf command StageCommand.outputFlag ∈ outputs ∨
      ∃ x ∈ objects, IsTextOf (Arguments.valueOf command StageCommand.outputFlag) x ∧ x ≠ [] ∧
        ∀ fs, WaysOff inside fs₀ fs → fs.IsClear x) :
    writing.WritesNamed fs₀ inside outputs objects command := by
  have hchange : ∀ environment (h : Host),
      (outcome (writing command environment) h).2 = h ∨
        ∃ files loc e, (outcome (writing command environment) h).2 = { h with files := files } ∧
          h.files.find h.here true (Arguments.valueOf command StageCommand.outputFlag) = .ok ⟨loc, e⟩ ∧
          DiffersAt h.files files loc := by
    intro environment h
    rw [outcome_writing]
    rcases hopen : h.files.openForWriting h.here false (Arguments.valueOf command StageCommand.outputFlag)
      with e | ⟨files, loc⟩
    · exact .inl rfl
    · obtain ⟨⟨e, hfind⟩, hdiffers, -⟩ := differsAt_of_openForWriting hopen
      exact .inr ⟨files, loc, e, rfl, hfind, hdiffers⟩
  constructor
  · intro environment h hw
    obtain hsame | ⟨files, loc, e, hsame, -, hdiffers⟩ := hchange environment h <;> rw [hsame]
    · exact .refl h
    · exact .of_differsAt hdiffers
  · intro environment h hw
    obtain hsame | ⟨files, loc, e, hsame, -⟩ := hchange environment h <;> rw [hsame]
  · intro environment h hw y hy
    obtain hsame | ⟨files, loc, e, hsame, hfind, hdiffers⟩ := hchange environment h <;> rw [hsame] at hy
    · exact (hy rfl).elim
    · obtain rfl : y = loc := by
        by_contra hne
        exact hy (hdiffers.elsewhere y hne)
      refine .inr ⟨_, hvalue, e, hfind, hplace.imp_right ?_⟩
      rintro ⟨x, hx, htext, hroot, hclear⟩
      have hlocation : y = x := htext.location_of_find hroot
        (fun z hz => (hclear _ hw).noLinks_on_way (hz.trans (List.prefix_append x []))) hfind
      exact hlocation ▸ hx

/-- Such a command does the same wherever its output is nobody else's. -/
theorem isHeedless_writing
    (htext : IsTextOf (Arguments.valueOf command StageCommand.outputFlag) (W ++ names)) (hroot : W ≠ [])
    (hown : ∀ x, W <+: x → x ∉ apart ∧ x ∉ copied) (hclear : ∀ fs, WaysOff inside fs₀ fs → fs.IsClear W) :
    writing.IsHeedless fs₀ inside apart copied command := by
  intro environment h h' ha hw hw'
  have hplace : W ++ names ≠ [] := List.append_ne_nil_of_left_ne_nil hroot names
  have hslash := htext.getLast?_ne_slash hplace
  have hfind := ha.find_eq hown hroot (hclear _ hw) (hclear _ hw') htext true
  rw [outcome_writing, outcome_writing]
  rcases hfound : h.files.find h.here true (Arguments.valueOf command StageCommand.outputFlag) with
    e | ⟨loc, e⟩
  · rw [hfound] at hfind
    rw [openForWriting_of_error hslash hfound, openForWriting_of_error hslash hfind]
    exact ⟨rfl, ha⟩
  · rw [hfound] at hfind
    obtain rfl : loc = W ++ names := htext.location_of_find hplace
      (fun z hz => (hclear _ hw).noLinks_on_way hz) hfound
    rw [openForWriting_of_find hslash hfound, openForWriting_of_find hslash hfind]
    by_cases hentry : e = some .directory
    · simp only [hentry, ↓reduceIte]
      exact ⟨rfl, ha⟩
    · simp only [hentry, ↓reduceIte]
      exact ⟨rfl, ha.withFiles (ha.files.emptied hplace e)⟩

end writing

/-- How far a run has come: it keeps to its workspace, and has changed nothing that it does not own. -/
structure OnCourse (ps : ι → Party) (start : Files) (i : ι) (state : Job String × Host) : Prop where
  keeps : (ps i).Keeps state.1
  logging : state.2.logging = (ps i).host.logging
  ways : WaysOff (workspaces ps) start state.2.files

namespace OnCourse

theorem copies_of_logging (ho : OnCourse ps start i (j, h)) :
    ∀ loc, h.logging.copyTo = some loc → loc ∈ copies ps :=
  fun _ hcopy => ⟨i, ho.logging ▸ hcopy⟩

/-- A step changes only what its run owns. -/
theorem staysIn (ho : OnCourse ps start i (j, h)) (hs : Share ps T start)
    (hgiven : ∀ m ∈ (j.history (ps i).runner h).take 1, IsGiven (ps i).path m.event) :
    StaysIn start (workspaces ps) (ps i).owned (copies ps) h (proceed (ps i).runner (j, h)).2 := by
  cases ho.keeps with
  | done => exact .of_files_eq rfl rfl rfl
  | failed => exact .of_files_eq rfl rfl rfl
  | step here rest =>
    rw [proceed_step]
    exact .step (hs.placed.site i) (fun x hx => .inl hx) (fun x hx => ⟨i, hx⟩) (hs.placed.isClear ho.ways i)
      ho.copies_of_logging here ho.ways (hs.writes i) (Placed.outputs_join i) (fun x hx => .inr hx)
      (hgiven _ List.mem_cons_self)

theorem proceed (ho : OnCourse ps start i (j, h)) (hs : Share ps T start)
    (hgiven : ∀ m ∈ (j.history (ps i).runner h).take 1, IsGiven (ps i).path m.event) :
    OnCourse ps start i (proceed (ps i).runner (j, h)) where
  keeps := by
    cases ho.keeps with
    | done value => exact .done value
    | failed => exact .failed
    | step here rest =>
      rw [proceed_step]
      refine rest _ (isOwnAnswer_of_outcome (hs.placed.site i) (hs.placed.isClear ho.ways i) here ?_)
      exact hgiven _ List.mem_cons_self
  logging := (ho.staysIn hs hgiven).logging.trans ho.logging
  ways := (ho.staysIn hs hgiven).ways ho.ways

/-- All launches of a run keep the ways. -/
theorem sameWays (ho : OnCourse ps start i (j, h)) (hs : Share ps T start)
    (hgiven : ∀ m ∈ j.history (ps i).runner h, IsGiven (ps i).path m.event) :
    ∀ m ∈ j.history (ps i).runner h, m.event.call?.isSome → m.before.SameWays m.after := by
  induction j generalizing h with
  | done a => exact List.forall_mem_nil _
  | failed fault => exact List.forall_mem_nil _
  | step s next ih =>
    obtain ⟨hfirst, hrest⟩ := List.forall_mem_cons.mp hgiven
    refine List.forall_mem_cons.mpr ⟨fun hcall => ?_, ?_⟩
    · cases ho.keeps with
      | step here rest =>
        cases s with
        | launch command environment =>
          have hways := (hs.writes i command here).ways environment
            { h with launches := h.launches ++ [⟨command, environment, h.files⟩] } ho.ways
          dsimp only
          rw [Step.outcome_launch]
          exact ⟨hways.here, hways.environment, hways.accounts, hways.account, hways.keeps, hways.keptFrom⟩
        | _ => exact nomatch hcall
    · have hnext := ho.proceed hs (List.forall_mem_singleton.mpr hfirst)
      rw [proceed_step] at hnext
      exact ih _ hnext hrest

end OnCourse

/-- A workspace that is made there gets the first name that is tried. -/
def AtFirst (path : String) (m : Moment) : Prop :=
  ∀ answer, m.event = ⟨.makeWorkspace, answer⟩ →
    answer = .ok path ∧ pathOf m.before (m.before.attempts + 1) = path

/-- On a machine that is ready for it a run gets the workspace that the machine is ready for. -/
theorem atFirst_of_isReady {runner : Runner} {args : Arguments} {W : Location} (c : Config) (driver : String)
    (hready : IsReady h (fileName args) W) :
    ∀ m ∈ (compile c driver args).history runner h, AtFirst (pathOf h (h.attempts + 1)) m := by
  obtain ⟨v, hmoments, hv, -⟩ := visit_of_isReady hready
    (passes_history runner (compile c driver args) h) (follows_events runner (compile c driver args) h)
  rw [hmoments]
  intro m hm answer hevent
  obtain rfl := hv.eq_making hm hevent
  cases hevent.symm.trans hv.making
  obtain ⟨-, htemporary, hattempts, -⟩ := hv.before.machine_eq
  exact ⟨rfl, by rw [pathOf, pathOf, htemporary, hattempts]⟩

/-- A run on a machine of its own, and among others. -/
theorem OnCourse.beside (ho : OnCourse ps start i (j, h)) (ho' : OnCourse ps start i (j, h'))
    (hs : Share ps T start) (ha : AgreesOff (others ps i) (copies ps) h h') :
    Beside (others ps i) (copies ps) (ps i).path (ps i).place h h' where
  agrees := ha
  site := hs.placed.site i
  own _ hx := hs.placed.own (.inl hx)
  copies := ho.copies_of_logging
  clear := hs.placed.isClear ho.ways i
  clear' := hs.placed.isClear ho'.ways i

/-- Where a run on its own gets its workspace at the first try, it gets it among others as well. -/
theorem OnCourse.given_of_first (ho : OnCourse ps start i (j, h)) (ho' : OnCourse ps start i (j, h'))
    (hs : Share ps T start) (ha : AgreesOff (others ps i) (copies ps) h h') (hcount : (ps i).runner.KeepsCount)
    (hattempts : h'.attempts = h.attempts)
    (hfirst : ∀ m ∈ (j.history (ps i).runner h).take 1, AtFirst (ps i).path m) :
    (∀ m ∈ (j.history (ps i).runner h').take 1, IsGiven (ps i).path m.event) ∧
      (Job.proceed (ps i).runner (j, h')).2.attempts = (Job.proceed (ps i).runner (j, h)).2.attempts := by
  cases j with
  | done a => exact ⟨List.forall_mem_nil _, hattempts⟩
  | failed fault => exact ⟨List.forall_mem_nil _, hattempts⟩
  | step s next =>
    simp only [proceed_step]
    by_cases hmake : s = .makeWorkspace
    · subst hmake
      have hhere : AtFirst (ps i).path
          ⟨h, ⟨.makeWorkspace, (outcome Workspace.make h).1⟩, (outcome Workspace.make h).2⟩ :=
        hfirst _ List.mem_cons_self
      obtain ⟨hgiven, hpath⟩ := hhere _ rfl
      obtain ⟨hgiven', hattempts'⟩ := (ho.beside ho' hs ha).make_of_first hattempts hpath hgiven
      have hthere : IsGiven (ps i).path
          ⟨.makeWorkspace, (Step.makeWorkspace.outcome (ps i).runner h').1⟩ := isGiven_of_eq hgiven'
      have hafter : ∀ h, (Step.makeWorkspace.outcome (ps i).runner h).2 = (outcome Workspace.make h).2 :=
        fun _ => rfl
      refine ⟨List.forall_mem_singleton.mpr hthere, ?_⟩
      rw [hafter, hafter]
      exact hattempts'
    · refine ⟨List.forall_mem_singleton.mpr fun answer hevent => ?_, ?_⟩
      · exact (hmake (congrArg Event.step hevent)).elim
      · rw [attempts_outcome hcount hmake, attempts_outcome hcount hmake, hattempts]

/-- The same event, with the same entries in the workspace beforehand. -/
structure SameMoment (W : Location) (m m' : Moment) : Prop where
  event : m.event = m'.event
  contents : ∀ x, W <+: x → m.before.files.get? x = m'.before.files.get? x

/-- The next step is the same on machines that agree off what others own. -/
structure SameProceeding (W : Location) (apart copied : Set Location) (runner : Runner) (j : Job String)
    (h h' : Host) : Prop where
  job : (proceed runner (j, h')).1 = (proceed runner (j, h)).1
  agrees : AgreesOff apart copied (proceed runner (j, h)).2 (proceed runner (j, h')).2
  moment : List.Forall₂ (SameMoment W) ((j.history runner h').take 1) ((j.history runner h).take 1)

theorem OnCourse.sameProceeding (ho : OnCourse ps start i (j, h)) (ho' : OnCourse ps start i (j, h'))
    (hs : Share ps T start) (ha : AgreesOff (others ps i) (copies ps) h h')
    (hgiven : ∀ m ∈ (j.history (ps i).runner h).take 1, IsGiven (ps i).path m.event)
    (hgiven' : ∀ m ∈ (j.history (ps i).runner h').take 1, IsGiven (ps i).path m.event) :
    SameProceeding (ps i).place (others ps i) (copies ps) (ps i).runner j h h' := by
  have hbeside := ho.beside ho' hs ha
  cases ho.keeps with
  | done => exact ⟨rfl, ha, .nil⟩
  | failed => exact ⟨rfl, ha, .nil⟩
  | @step s next here rest =>
    obtain ⟨hresult, hagrees⟩ := hbeside.step here (hs.heedless i) ho.ways ho'.ways
      (hgiven _ List.mem_cons_self) (hgiven' _ List.mem_cons_self)
    refine ⟨?_, ?_, .cons ⟨?_, fun x hx => ?_⟩ .nil⟩
    · rw [proceed_step, proceed_step, hresult]
    · rw [proceed_step, proceed_step]
      exact hagrees
    · exact congrArg (Event.mk s) hresult
    · exact ha.files.same x (hs.placed.own (.inl hx)).1 (hs.placed.own (.inl hx)).2

end BitcodeWrapper.Pipeline
