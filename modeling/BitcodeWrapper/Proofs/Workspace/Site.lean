import BitcodeWrapper.Proofs.Host.Apart
import BitcodeWrapper.Proofs.Workspace.Alike

/-! Workspaces in places of their own. A run does the same in its place on two machines that agree there,
whatever is done in the places of others, and it changes nothing in those. -/
namespace BitcodeWrapper
open BitcodeWrapper.Action Files Host Job

variable {α : Type} {h h' k : Host} {path name : String} {W : Location} {fs₀ : Files} {runner : Runner}
  {apart copied own inside objects : Set Location} {command outputs : List String}
  {commands : List (List String)} {s : Step}

/-- A path that spells out a place for a workspace, without variables. -/
structure Files.IsSite (path : String) (W : Location) : Prop where
  text : IsTextOf path W
  nonroot : W ≠ []
  noVariable : '$' ∉ path.toList

theorem Files.IsSite.location_of_find {follow : Bool} {found : Found} (hs : IsSite path W)
    (hc : h.files.IsClear W) (hfind : h.files.find h.here follow path = .ok found) :
    found.location = W :=
  hs.text.location_of_find hs.nonroot (fun _ hx => hc.noLinks_on_way (hx.trans (List.prefix_append W [])))
    hfind

/-- Computations that end alike, on machines that agree off the places of others afterwards. -/
structure AgreeingOff (apart copied : Set Location) (out out' : Except Fault α × Host) : Prop where
  result : out'.1 = out.1
  agrees : AgreesOff apart copied out.2 out'.2

/-- On machines with these ways a command does not depend on what others do in their places. One that looked
there could answer otherwise than it does when they are absent. -/
def Runner.IsHeedless (runner : Runner) (fs₀ : Files) (inside apart copied : Set Location)
    (command : List String) : Prop :=
  ∀ environment h h', AgreesOff apart copied h h' → WaysOff inside fs₀ h.files →
    WaysOff inside fs₀ h'.files →
    AgreeingOff apart copied (outcome (runner command environment) h)
      (outcome (runner command environment) h')

/-- On machines with these ways a command writes only to paths that it names, which are the outputs or lead to
certain places, and to the copy of the log. It makes and removes no directories or links, and leaves the
wrapper's own process as it is. -/
structure Runner.WritesNamed (runner : Runner) (fs₀ : Files) (inside : Set Location) (outputs : List String)
    (objects : Set Location) (command : List String) : Prop where
  ways : ∀ environment (h : Host), WaysOff inside fs₀ h.files →
    h.SameWays (outcome (runner command environment) h).2
  logging : ∀ environment (h : Host), WaysOff inside fs₀ h.files →
    (outcome (runner command environment) h).2.logging = h.logging
  written : ∀ environment (h : Host), WaysOff inside fs₀ h.files → ∀ x,
    (outcome (runner command environment) h).2.files.get? x ≠ h.files.get? x →
      (h.logging.copyTo = some x ∧
        Alike (h.files.get? x) ((outcome (runner command environment) h).2.files.get? x)) ∨
      ∃ path ∈ command, ∃ e, h.files.find h.here true path = .ok ⟨x, e⟩ ∧ (path ∈ outputs ∨ x ∈ objects)

/-- Commands do not take numbers of workspaces. -/
def Runner.KeepsCount (runner : Runner) : Prop :=
  ∀ command environment (h : Host), (outcome (runner command environment) h).2.attempts = h.attempts

namespace Workspace

/-- The steps of a run that has its workspace there, and launches these commands. -/
def IsOwnStep (path : String) (commands : List (List String)) : Step → Prop
  | .createFile directory name => directory = path ∧ IsPlain name ∧ '$' ∉ name.toList
  | .launch command _ => command ∈ commands
  | .releaseWorkspace _ directory => directory = path
  | .makeWorkspace | .environment | .echo _ | .log _ _ => True

/-- The answers that such a run gets: the workspace is made there, and files get the paths they are asked for
under. -/
def IsOwnAnswer (path : String) : (s : Step) → s.Answer → Prop
  | .makeWorkspace, directory => directory = path
  | .createFile directory name, whole => whole = Path.join directory name
  | _, _ => True

/-- If a workspace is made, it is made there. -/
def IsGiven (path : String) (e : Event) : Prop :=
  ∀ answer, e = ⟨.makeWorkspace, answer⟩ → answer = .ok path

theorem isGiven_of_eq {answer : Except Fault String} (h : answer = .ok path) :
    IsGiven path ⟨.makeWorkspace, answer⟩ := by
  intro answer' hevent
  cases hevent
  exact h

theorem make_of_isClear (hs : IsSite path W) (hc : h.files.IsClear W)
    (hmake : (outcome make h).1 = .ok path) :
    ∃ n, outcome make h = (.ok path,
      ({ h with attempts := n, files := h.files.put W .directory } : Host).accept
        (h.ownRecord .debug ("Created temp dir " ++ path))) := by
  obtain ⟨cause, ho⟩ | ⟨loc, hfree, ho⟩ := outcome_make h <;> rw [ho] at hmake
  · exact nomatch hmake
  · have hpath : pathOf h (nextNumber h) = path := Except.ok.inj hmake
    rw [hpath] at hfree ho
    obtain rfl : loc = W := hs.location_of_find hc hfree
    exact ⟨_, ho⟩

theorem createFile_of_hasNul (hnul : hasNul (Path.join path name) = true) :
    outcome (createFile path name) h = (.error .invalidValue, h) := by
  simp only [createFile, hnul, ↓reduceIte, outcome_bind, outcome_throw]

/-- The workspace that is made there is made as any other. -/
theorem isMade_of_isClear (hs : IsSite path W) (hc : h.files.IsClear W)
    (hmake : outcome make h = (.ok path, h')) : IsMade h path W h' := by
  obtain ⟨cause, ho⟩ | ⟨loc, hfree, ho⟩ := outcome_make h <;> rw [hmake] at ho
  · exact nomatch congrArg Prod.fst ho
  · obtain ⟨hpath, rfl⟩ := Prod.mk.inj ho
    have hmade := isMade_put (r := h.ownRecord .debug ("Created temp dir " ++ pathOf h (nextNumber h))) hfree
    rw [← Except.ok.inj hpath] at hfree hmade ⊢
    obtain rfl : loc = W := hs.location_of_find hc hfree
    exact hmade

/-- A file of a plain name gets the path that it is asked for under, unless it cannot be opened. -/
theorem createFile_of_isClear (hs : IsSite path W) (hc : h.files.IsClear W) (hname : IsPlain name)
    (hdollar : '$' ∉ name.toList) (hnul : hasNul (Path.join path name) = false) :
    outcome (createFile path name) h =
      match h.files.find h.here true (Path.join path name) with
      | .error e =>
        (.error (.failure (.workspace (.file (Path.join path name) (.on e (Path.join path name))))), h)
      | .ok found =>
        if found.entry = some .directory then
          (.error (.failure (.workspace
            (.file (Path.join path name) (.on .isDirectory (Path.join path name))))), h)
        else
          (.ok (Path.join path name),
            { h with files := h.files.emptied (W ++ [name]) found.entry }) := by
  have hslash := (hs.text.join hname).getLast?_ne_slash (List.append_ne_nil_of_right_ne_nil W (by simp))
  rcases hfind : h.files.find h.here true (Path.join path name) with e | found
  · simp only [createFile, hnul, Bool.false_eq_true, ↓reduceIte, outcome_bind, outcome_get,
      openForWriting_of_error hslash hfind, outcome_fail]
  · obtain ⟨hd, hlocation⟩ := hc.isDirect hs.text hname hfind
    obtain ⟨loc, entry⟩ := found
    obtain rfl : loc = W ++ [name] := hlocation
    have hopen := openForWriting_of_find hslash hfind
    by_cases hentry : entry = some .directory
    · rw [if_pos hentry] at hopen
      simp only [createFile, hnul, Bool.false_eq_true, ↓reduceIte, outcome_bind, outcome_get, hopen,
        outcome_fail, hentry]
    · have hlink : ∀ target, h.files.get? (W ++ [name]) ≠ some (.link target) :=
        hc.noLinks _ (List.prefix_append W _)
      have hwhole := Host.expandPath_join hd hs.nonroot hname hs.noVariable hdollar hnul
        ((hd.of_find_join hname hlink hfind).2.of_join hname) hlink
      rw [if_neg hentry] at hopen
      simp only [outcome_createFile_of_openForWriting hnul hopen, hwhole, hentry, ↓reduceIte]
      rfl

/-- A machine and itself among others, with a place of its own that directories lead to. -/
structure Beside (apart copied : Set Location) (path : String) (W : Location) (h h' : Host) : Prop where
  agrees : AgreesOff apart copied h h'
  site : IsSite path W
  own : ∀ x, W <+: x → x ∉ apart ∧ x ∉ copied
  copies : ∀ loc, h.logging.copyTo = some loc → loc ∈ copied
  clear : h.files.IsClear W
  clear' : h'.files.IsClear W

namespace Beside

theorem accept (hb : Beside apart copied path W h h') (r : Log.Record) :
    Beside apart copied path W (h.accept r) (h'.accept r) where
  agrees := hb.agrees.accept hb.copies r
  site := hb.site
  own := hb.own
  copies := by
    rw [logging_accept]
    exact hb.copies
  clear := hb.clear.of_kept (kept_accept h r)
  clear' := hb.clear'.of_kept (kept_accept h' r)

theorem make (hb : Beside apart copied path W h h') (hmake : (outcome make h).1 = .ok path)
    (hmake' : (outcome make h').1 = .ok path) :
    AgreeingOff apart copied (outcome make h) (outcome make h') := by
  obtain ⟨n, ho⟩ := make_of_isClear hb.site hb.clear hmake
  obtain ⟨n', ho'⟩ := make_of_isClear hb.site hb.clear' hmake'
  rw [ho, ho', hb.agrees.ownRecord_eq]
  have hput := (hb.agrees.withFiles (hb.agrees.files.put hb.site.nonroot .directory)).withAttempts n n'
  exact ⟨rfl, hput.accept hb.copies _⟩

/-- Where the first name that is tried is free, it is free beside others as well. -/
theorem make_of_first (hb : Beside apart copied path W h h') (hattempts : h'.attempts = h.attempts)
    (hfirst : pathOf h (h.attempts + 1) = path) (hmake : (outcome Workspace.make h).1 = .ok path) :
    (outcome Workspace.make h').1 = .ok path ∧
      (outcome Workspace.make h').2.attempts = (outcome Workspace.make h).2.attempts := by
  have hfirst' : pathOf h' (h'.attempts + 1) = path := by
    rw [hattempts, ← hfirst, pathOf, pathOf, hb.agrees.own]
  have htext : IsTextOf path (W ++ []) := (List.append_nil W).symm ▸ hb.site.text
  have hfind := hb.agrees.find_eq hb.own hb.site.nonroot hb.clear hb.clear' htext false
  obtain ⟨cause, ho⟩ | ⟨loc, hfree, ho⟩ := outcome_make h
  · rw [ho] at hmake
    exact nomatch hmake
  · rw [ho] at hmake
    rw [show pathOf h (nextNumber h) = path from Except.ok.inj hmake] at hfree
    have hfree' := hfind.trans hfree
    rw [← hfirst] at hfree
    rw [← hfirst'] at hfree'
    rw [outcome_make_of_free hfree, outcome_make_of_free hfree', hfirst']
    refine ⟨rfl, ?_⟩
    rw [attempts_accept, attempts_accept, hattempts]

theorem createFile (hb : Beside apart copied path W h h') (hname : IsPlain name)
    (hdollar : '$' ∉ name.toList) :
    AgreeingOff apart copied (outcome (createFile path name) h) (outcome (createFile path name) h') := by
  rcases hnul : hasNul (Path.join path name) with _ | _
  · have hfind := hb.agrees.find_eq hb.own hb.site.nonroot hb.clear hb.clear'
      (hb.site.text.join hname) true
    rw [createFile_of_isClear hb.site hb.clear hname hdollar hnul,
      createFile_of_isClear hb.site hb.clear' hname hdollar hnul, hfind]
    rcases h.files.find h.here true (Path.join path name) with e | found
    · exact ⟨rfl, hb.agrees⟩
    · by_cases hentry : found.entry = some .directory
      · simp only [hentry, ↓reduceIte]
        exact ⟨rfl, hb.agrees⟩
      · simp only [hentry, ↓reduceIte]
        exact ⟨rfl, hb.agrees.withFiles (hb.agrees.files.emptied (by simp) _)⟩
  · rw [createFile_of_hasNul hnul, createFile_of_hasNul hnul]
    exact ⟨rfl, hb.agrees⟩

theorem launch (hb : Beside apart copied path W h h')
    (hheedless : runner.IsHeedless fs₀ inside apart copied command) (hw : WaysOff inside fs₀ h.files)
    (hw' : WaysOff inside fs₀ h'.files) (environment : Option Bindings) :
    AgreeingOff apart copied ((Step.launch command environment).outcome runner h)
      ((Step.launch command environment).outcome runner h') := by
  have hnoted : (h'.launches ++ [(⟨command, environment, h'.files⟩ : Launch)]).map Launch.request =
      (h.launches ++ [(⟨command, environment, h.files⟩ : Launch)]).map Launch.request := by
    rw [List.map_append, List.map_append, hb.agrees.requests]
    rfl
  have hran := hheedless environment _ _ (hb.agrees.withLaunches hnoted) hw hw'
  rw [Step.outcome_launch, Step.outcome_launch]
  exact ⟨hran.result, hran.agrees.withLaunches hnoted⟩

theorem release (hb : Beside apart copied path W h h') (retain : Bool) :
    AgreeingOff apart copied ((Step.releaseWorkspace retain path).outcome runner h)
      ((Step.releaseWorkspace retain path).outcome runner h') := by
  cases retain with
  | true => exact ⟨rfl, hb.agrees.withDiagnostics _⟩
  | false =>
    rw [Step.outcome_remove, Step.outcome_remove, hb.agrees.ownRecord_eq]
    refine ⟨rfl, ?_⟩
    have hk := hb.accept (h.ownRecord .debug ("Removing temp dir " ++ path))
    have htext : IsTextOf path (W ++ []) := (List.append_nil W).symm ▸ hk.site.text
    have hfind := hk.agrees.find_eq hk.own hk.site.nonroot hk.clear hk.clear' htext false
    generalize h.accept (h.ownRecord .debug ("Removing temp dir " ++ path)) = k at hk hfind ⊢
    generalize h'.accept (h.ownRecord .debug ("Removing temp dir " ++ path)) = k' at hk hfind ⊢
    simp only [hfind]
    rcases hfound : k.files.find k.here false path with e | ⟨loc, _ | entry⟩
    · exact hk.agrees
    · exact hk.agrees
    · obtain rfl : loc = W := hk.site.location_of_find hk.clear hfound
      cases entry with
      | directory => exact hk.agrees.withFiles (hk.agrees.files.remove hk.site.nonroot)
      | _ => exact hk.agrees

/-- Each step of a run is answered alike on both machines, and they still agree afterwards. -/
theorem step (hb : Beside apart copied path W h h') (hstep : IsOwnStep path commands s)
    (hheedless : ∀ command ∈ commands, runner.IsHeedless fs₀ inside apart copied command)
    (hw : WaysOff inside fs₀ h.files) (hw' : WaysOff inside fs₀ h'.files)
    (hgiven : IsGiven path ⟨s, (s.outcome runner h).1⟩)
    (hgiven' : IsGiven path ⟨s, (s.outcome runner h').1⟩) :
    AgreeingOff apart copied (s.outcome runner h) (s.outcome runner h') := by
  cases s with
  | makeWorkspace => exact hb.make (hgiven _ rfl) (hgiven' _ rfl)
  | createFile directory name =>
    obtain ⟨rfl, hname, hdollar⟩ := hstep
    exact hb.createFile hname hdollar
  | launch command environment => exact hb.launch (hheedless command hstep) hw hw' environment
  | releaseWorkspace retain directory =>
    obtain rfl : directory = path := hstep
    exact hb.release retain
  | environment =>
    rw [Step.outcome_environment, Step.outcome_environment, hb.agrees.environment_eq]
    exact ⟨rfl, hb.agrees⟩
  | echo output => exact ⟨rfl, hb.agrees.withOutput output⟩
  | log level message =>
    rw [Step.outcome_log, Step.outcome_log, hb.agrees.ownRecord_eq]
    exact ⟨rfl, hb.agrees.accept hb.copies _⟩

end Beside

/-- A run stays in its own places from one machine to the next. -/
structure StaysIn (fs₀ : Files) (inside own copied : Set Location) (h h' : Host) : Prop where
  here : h'.here = h.here
  logging : h'.logging = h.logging
  files : SameOff own copied h.files h'.files
  ways : WaysOff inside fs₀ h.files → WaysOff inside fs₀ h'.files

namespace StaysIn

theorem of_files_eq (hhere : h'.here = h.here) (hlogging : h'.logging = h.logging)
    (hfiles : h'.files = h.files) : StaysIn fs₀ inside own copied h h' where
  here := hhere
  logging := hlogging
  files := hfiles ▸ .refl _
  ways hw := hfiles ▸ hw

theorem trans (hst : StaysIn fs₀ inside own copied h h') (hst' : StaysIn fs₀ inside own copied h' k) :
    StaysIn fs₀ inside own copied h k where
  here := hst'.here.trans hst.here
  logging := hst'.logging.trans hst.logging
  files := hst.files.trans hst'.files
  ways hw := hst'.ways (hst.ways hw)

theorem accept (hcopies : ∀ loc, h.logging.copyTo = some loc → loc ∈ copied) (r : Log.Record) :
    StaysIn fs₀ inside own copied h (h.accept r) where
  here := here_accept h r
  logging := logging_accept h r
  files := sameOff_accept hcopies r
  ways hw := hw.of_accept r

/-- Commands stay in the places of a run if all that they write to lies there. -/
theorem launch (hwrites : runner.WritesNamed fs₀ inside outputs objects command)
    (hw : WaysOff inside fs₀ h.files) (hcopies : ∀ loc, h.logging.copyTo = some loc → loc ∈ copied)
    (houtputs : ∀ path ∈ outputs, ∀ found, h.files.find h.here true path = .ok found → found.location ∈ own)
    (hobjects : objects ⊆ own) (environment : Option Bindings) :
    StaysIn fs₀ inside own copied h ((Step.launch command environment).outcome runner h).2 := by
  rw [Step.outcome_launch]
  dsimp only
  have hways := hwrites.ways environment
    { h with launches := h.launches ++ [⟨command, environment, h.files⟩] } hw
  have hlogging := hwrites.logging environment
    { h with launches := h.launches ++ [⟨command, environment, h.files⟩] } hw
  have hwritten := hwrites.written environment
    { h with launches := h.launches ++ [⟨command, environment, h.files⟩] } hw
  generalize (outcome (runner command environment) _).2 = k at hways hlogging hwritten ⊢
  -- what is written outside these places is the copy of the log
  have hchange : ∀ x ∉ own, k.files.get? x ≠ h.files.get? x →
      x ∈ copied ∧ Alike (h.files.get? x) (k.files.get? x) := by
    intro x hx hne
    rcases hwritten x hne with ⟨hcopy, halike⟩ | ⟨path, -, e, hfind, hpath | hobject⟩
    · exact ⟨hcopies x hcopy, halike⟩
    · exact (hx (houtputs path hpath _ hfind)).elim
    · exact (hx (hobjects hobject)).elim
  refine ⟨hways.here, hlogging, ⟨fun x hx hcopied => ?_, fun x hx => ?_⟩,
    fun hw => hw.of_keepsPassages hways.keeps hways.keptFrom⟩
  · by_contra hne
    exact hcopied (hchange x hx hne).1
  · by_cases heq : k.files.get? x = h.files.get? x
    · exact heq.symm ▸ .same _
    · exact (hchange x hx heq).2

section place
variable (hs : IsSite path W) (hown : ∀ x, W <+: x → x ∈ own) (hinside : ∀ x, W <+: x → x ∈ inside)
include hs hown hinside

theorem put (attempts : Nat) :
    StaysIn fs₀ inside own copied h
      { h with attempts := attempts, files := h.files.put W .directory } where
  here := rfl
  logging := rfl
  files := .of_eq_off fun x hx => by
    have hne : x ≠ W := by
      rintro rfl
      exact hx (hown x List.prefix_rfl)
    rw [get?_put _ _ _ _ hs.nonroot, if_neg hne]
  ways hw := hw.put hs.nonroot (hinside W List.prefix_rfl)

theorem remove : StaysIn fs₀ inside own copied h { h with files := h.files.remove W } where
  here := rfl
  logging := rfl
  files := .of_eq_off fun x hx => by
    rw [get?_remove _ _ _ hs.nonroot, if_neg fun hx' => hx (hown x (List.isPrefixOf_iff_prefix.mp hx'))]
  ways hw := hw.remove hs.nonroot hinside

variable (hc : h.files.IsClear W) (hcopies : ∀ loc, h.logging.copyTo = some loc → loc ∈ copied)
include hc hcopies

theorem make (hmake : (outcome make h).1 = .ok path) :
    StaysIn fs₀ inside own copied h (outcome make h).2 := by
  obtain ⟨n, ho⟩ := make_of_isClear hs hc hmake
  rw [ho]
  exact (put hs hown hinside n).trans
    (accept (h := { h with attempts := n, files := h.files.put W .directory }) hcopies _)

omit hinside hcopies in
theorem createFile (hname : IsPlain name) :
    StaysIn fs₀ inside own copied h (outcome (createFile path name) h).2 := by
  rcases hout : outcome (Workspace.createFile path name) h with ⟨answer, h'⟩
  obtain ⟨rfl, -⟩ | ⟨files, loc, e, rfl, hfind, hdiffers, -⟩ := differsAt_of_createFile hout
  · exact of_files_eq rfl rfl rfl
  · obtain ⟨-, hlocation⟩ := hc.isDirect hs.text hname hfind
    obtain rfl : loc = W ++ [name] := hlocation
    refine ⟨rfl, rfl, .of_eq_off fun x hx => hdiffers.elsewhere x ?_,
      fun hw => hw.of_keepsPassages hdiffers.keeps hdiffers.keptFrom⟩
    rintro rfl
    exact hx (hown _ (List.prefix_append W _))

theorem release (retain : Bool) :
    StaysIn fs₀ inside own copied h ((Step.releaseWorkspace retain path).outcome runner h).2 := by
  cases retain with
  | true => exact of_files_eq rfl rfl rfl
  | false =>
    rw [Step.outcome_remove]
    refine (accept hcopies (h.ownRecord .debug ("Removing temp dir " ++ path))).trans ?_
    have hk := hc.of_kept (kept_accept h (h.ownRecord .debug ("Removing temp dir " ++ path)))
    generalize h.accept (h.ownRecord .debug ("Removing temp dir " ++ path)) = k at hk ⊢
    dsimp only
    rcases hfound : k.files.find k.here false path with e | ⟨loc, _ | entry⟩
    · exact of_files_eq rfl rfl rfl
    · exact of_files_eq rfl rfl rfl
    · obtain rfl : loc = W := hs.location_of_find hk hfound
      cases entry with
      | directory => exact remove hs hown hinside
      | _ => exact of_files_eq rfl rfl rfl

/-- Each step of a run stays in its places. -/
theorem step (hstep : IsOwnStep path commands s) (hw : WaysOff inside fs₀ h.files)
    (hwrites : ∀ command ∈ commands, runner.WritesNamed fs₀ inside outputs objects command)
    (houtputs : ∀ file ∈ outputs, ∃ name, IsPlain name ∧ file = Path.join path name) (hobjects : objects ⊆ own)
    (hgiven : IsGiven path ⟨s, (s.outcome runner h).1⟩) :
    StaysIn fs₀ inside own copied h (s.outcome runner h).2 := by
  cases s with
  | makeWorkspace => exact make hs hown hinside hc hcopies (hgiven _ rfl)
  | createFile directory name =>
    obtain ⟨rfl, hname, -⟩ := hstep
    exact createFile hs hown hc hname
  | launch command environment =>
    refine launch (hwrites command hstep) hw hcopies (fun file hfile found hfind => ?_) hobjects environment
    obtain ⟨name, hname, rfl⟩ := houtputs file hfile
    rw [(hc.isDirect hs.text hname hfind).2]
    exact hown _ (List.prefix_append W _)
  | releaseWorkspace retain directory =>
    obtain rfl : directory = path := hstep
    exact release hs hown hinside hc hcopies retain
  | environment => exact of_files_eq rfl rfl rfl
  | echo output => exact of_files_eq rfl rfl rfl
  | log level message => exact accept hcopies _

end place

end StaysIn

/-- Workspaces are counted when they are made, and at no other step. -/
theorem attempts_outcome (hcount : runner.KeepsCount) (hmake : s ≠ .makeWorkspace) :
    (s.outcome runner h).2.attempts = h.attempts := by
  cases s with
  | makeWorkspace => exact (hmake rfl).elim
  | createFile directory name =>
    rcases hout : outcome (createFile directory name) h with ⟨answer, h'⟩
    have hout' : (Step.createFile directory name).outcome runner h = (answer, h') := hout
    rw [hout']
    obtain ⟨rfl, -⟩ | ⟨files, loc, e, rfl, -⟩ := differsAt_of_createFile hout <;> rfl
  | launch command environment =>
    rw [Step.outcome_launch]
    exact hcount command environment { h with launches := h.launches ++ [⟨command, environment, h.files⟩] }
  | releaseWorkspace retain directory =>
    cases retain with
    | true => rfl
    | false =>
      rw [Step.outcome_remove]
      dsimp only
      split <;> exact attempts_accept _ _
  | environment | echo => rfl
  | log level message => exact attempts_accept _ _

/-- The answers of a run are as they should be. -/
theorem isOwnAnswer_of_outcome (hs : IsSite path W) (hc : h.files.IsClear W)
    (hstep : IsOwnStep path commands s) (hgiven : IsGiven path ⟨s, (s.outcome runner h).1⟩) :
    ∀ a, (s.outcome runner h).1 = .ok a → IsOwnAnswer path s a := by
  intro a ha
  cases s with
  | makeWorkspace => exact Except.ok.inj (ha.symm.trans (hgiven _ rfl))
  | createFile directory name =>
    obtain ⟨rfl, hname, hdollar⟩ := hstep
    have ha' : (outcome (createFile directory name) h).1 = .ok a := ha
    rcases hnul : hasNul (Path.join directory name) with _ | _
    · rw [createFile_of_isClear hs hc hname hdollar hnul] at ha'
      split at ha'
      · exact nomatch ha'
      · split at ha'
        · exact nomatch ha'
        · exact (Except.ok.inj ha').symm
    · rw [createFile_of_hasNul hnul] at ha'
      exact nomatch ha'
  | launch | releaseWorkspace | environment | echo | log => trivial

end Workspace

end BitcodeWrapper
