import BitcodeWrapper.Proofs.Workspace.Alike

/-! Machines without the contents of their files, without their log and without what was launched on them.
Where paths lead, what a scripted runner answers and where workspaces are made is seen on what is left. -/
namespace BitcodeWrapper

/-- An entry with nothing in it. -/
def Entry.bare : Entry → Entry
  | .file _ isExecutable => .file [] isExecutable
  | e => e

theorem Entry.bare_bare (e : Entry) : e.bare.bare = e.bare := by
  cases e <;> rfl

namespace Files
variable {fs : Files} {here loc : Location} {path : String} {follow : Bool} {budget : Nat}
  {names : List String}

/-- The same tree with nothing in its files. -/
def bare (fs : Files) : Files := ⟨fs.entries.map fun p => (p.1, p.2.bare)⟩

@[simp] theorem bare_bare (fs : Files) : fs.bare.bare = fs.bare := by
  simp [bare, Entry.bare_bare]

@[simp] theorem get?_bare (fs : Files) (x : Location) : fs.bare.get? x = (fs.get? x).map Entry.bare := by
  by_cases hroot : x = []
  · simp [get?, hroot, Entry.bare]
  · simp only [get?, hroot, ↓reduceIte, bare]
    induction fs.entries with
    | nil => rfl
    | cons p rest ih =>
      rw [List.map_cons, List.lookup_cons, List.lookup_cons]
      split
      · rfl
      · exact ih

@[simp] theorem bare_put (fs : Files) (loc : Location) (e : Entry) :
    (fs.put loc e).bare = fs.bare.put loc e.bare := by
  simp [bare, put, List.filter_map, Function.comp_def]

@[simp] theorem bare_remove (fs : Files) (loc : Location) : (fs.remove loc).bare = fs.bare.remove loc := by
  simp [bare, remove, List.filter_map, Function.comp_def]

@[simp] theorem bare_append (fs : Files) (loc : Location) (bytes : Bytes) :
    (fs.append loc bytes).bare = fs.bare.append loc [] := by
  simp only [append, get?_bare]
  rcases fs.get? loc with _ | e
  · rfl
  · cases e with
    | file content isExecutable => exact bare_put fs loc _
    | directory | link | shell | sink => rfl

theorem keepsPassages_bare (fs : Files) : KeepsPassages fs fs.bare := by
  intro x e hx he
  rw [get?_bare, hx]
  cases e with
  | directory | link target => rfl
  | file | shell | sink => exact he.elim

theorem bare_keepsPassages (fs : Files) : KeepsPassages fs.bare fs := by
  intro x e hx he
  rw [get?_bare, Option.map_eq_some_iff] at hx
  obtain ⟨e', hx, rfl⟩ := hx
  cases e' with
  | directory | link target => exact hx
  | file | shell | sink => exact he.elim

/-- What a path leads to, with nothing in it. -/
def Found.bare (found : Found) : Found := ⟨found.location, found.entry.map Entry.bare⟩

theorem walk_bare :
    fs.bare.walk follow budget names loc = (fs.walk follow budget names loc).map Found.bare := by
  fun_induction walk fs follow budget names loc with
  | case1 => simp [walk_nil, Found.bare, Except.map]
  | case2 _ name rest loc hblank ih => rw [walk_blank (by simpa using hblank), ih]
  | case3 _ rest loc hblank ih => rw [walk_up, ih]
  | case4 budget name rest loc hblank hup hlong =>
    rw [walk, if_neg hblank, if_neg hup, if_pos hlong]
    rfl
  | case5 budget name loc hblank hup hshort next hentry
  | case6 budget name rest loc hblank hup hshort next hentry hrest
  | case8 budget name rest loc hblank hup hshort next target hentry hlast
  | case9 name rest loc hblank hup hshort next target hentry hlast =>
    rw [walk_step ⟨by simpa using hblank, hup, by omega⟩, get?_bare, hentry]
    simp [*, next, Entry.bare, Found.bare, Except.map]
  | case7 budget name rest loc hblank hup hshort next hentry ih =>
    rw [walk_step ⟨by simpa using hblank, hup, by omega⟩, get?_bare, hentry]
    exact ih
  | case10 name rest loc hblank hup hshort next target hentry hlast budget ih =>
    rw [walk_step ⟨by simpa using hblank, hup, by omega⟩, get?_bare, hentry]
    simp only [Option.map_some, Entry.bare, hlast]
    exact ih
  | case11 budget name loc hblank hup hshort next e hdirectory hlink hentry
  | case12 budget name rest loc hblank hup hshort next e hdirectory hlink hentry hrest =>
    rw [walk_step ⟨by simpa using hblank, hup, by omega⟩, get?_bare, hentry]
    cases e with
    | directory => exact (hdirectory rfl).elim
    | link target => exact (hlink target rfl).elim
    | file | shell | sink => simp [*, next, Entry.bare, Found.bare, Except.map]

theorem find_bare : fs.bare.find here follow path = (fs.find here follow path).map Found.bare := by
  simp only [find]
  split
  · rfl
  · split
    · rfl
    · exact walk_bare

theorem stat_bare : fs.bare.stat here path = (fs.stat here path).map fun p => (p.1, p.2.bare) := by
  rw [stat, stat, find_bare]
  rcases fs.find here true path with e | ⟨loc, _ | e⟩ <;> rfl

theorem refuseSlash_bare : fs.bare.refuseSlash here path = fs.refuseSlash here path := by
  delta refuseSlash
  simp only [stat_bare]
  rcases fs.stat here _ with e | ⟨loc, e⟩
  · rfl
  · cases e <;> rfl

theorem openForWriting_bare : fs.bare.openForWriting here false path =
    (fs.openForWriting here false path).map fun p => (p.1.bare, p.2) := by
  simp only [openForWriting, refuseSlash_bare, find_bare]
  split
  · rfl
  · rcases fs.find here true path with e | ⟨loc, _ | e⟩
    · rfl
    · simp [Except.map, Found.bare, Entry.bare]
    · cases e <;> simp [Except.map, Found.bare, Entry.bare]

end Files

namespace Host
variable {h h' : Host}

/-- What is left of a launch when only their number counts. -/
def bareLaunch : Launch := ⟨[], none, ⟨[]⟩⟩

/-- A machine without the contents of its files, without its log and without what was launched on it, of
which only the number is left. -/
def bare (h : Host) : Host :=
  { h with
    files := h.files.bare
    records := []
    diagnostics := ""
    launches := h.launches.map fun _ => bareLaunch }

@[simp] theorem bare_bare (h : Host) : h.bare.bare = h.bare := by
  simp [bare]

theorem length_launches_of_bare (hb : h.bare = h'.bare) : h'.launches.length = h.launches.length := by
  have hlaunches := congrArg (fun h => h.launches.length) hb
  simpa [bare] using hlaunches.symm

/-- What a record of this level leaves of a bare machine. -/
def noted (level : Log.Level) (h : Host) : Host :=
  if Log.passes h.logging.threshold (h.ownRecord level "") then
    { h with
      files := match h.logging.copyTo with
        | some loc => h.files.append loc []
        | none => h.files }
  else h

/-- The text of a record does not matter. -/
theorem bare_accept (h : Host) (level : Log.Level) (message : String) :
    (h.accept (h.ownRecord level message)).bare = h.bare.noted level := by
  have hpasses : Log.passes h.logging.threshold (h.ownRecord level message) =
      Log.passes h.bare.logging.threshold (h.bare.ownRecord level "") := rfl
  rw [noted, ← hpasses, accept]
  split
  · simp only [writeRecord, bare]
    cases h.logging.copyTo <;> simp
  · rfl

@[simp] theorem bare_withFiles (h : Host) (files : Files) :
    ({ h with files := files } : Host).bare = { h.bare with files := files.bare } := rfl

@[simp] theorem bare_withAttempts (h : Host) (n : Nat) :
    ({ h with attempts := n } : Host).bare = { h.bare with attempts := n } := rfl

theorem bare_withLaunch (h : Host) (l : Launch) :
    ({ h with launches := h.launches ++ [l] } : Host).bare =
      { h.bare with launches := h.bare.launches ++ [bareLaunch] } := by
  simp [bare]

theorem sameWays_bare (h : Host) : SameWays h h.bare where
  here := rfl
  environment := rfl
  accounts := rfl
  account := rfl
  keeps := Files.keepsPassages_bare h.files
  keptFrom := Files.bare_keepsPassages h.files

end Host

/-- How a computation ends, and what is left of its machine. -/
def Action.bared {α : Type} (out : Except Fault α × Host) : Except Fault α × Host := (out.1, out.2.bare)

namespace Workspace
open BitcodeWrapper.Action Files

variable {h : Host}

theorem firstFree_bare (fuel n : Nat) : firstFree h.bare fuel n = firstFree h fuel n := by
  induction fuel generalizing n with
  | zero => rfl
  | succ fuel ih =>
    have hfind : h.bare.files.find h.bare.here false (pathOf h.bare n) =
        (h.files.find h.here false (pathOf h n)).map Found.bare := find_bare
    unfold firstFree
    rw [hfind]
    rcases h.files.find h.here false (pathOf h n) with e | ⟨loc, _ | e⟩
    · rfl
    · rfl
    · exact ih (n + 1)

theorem nextNumber_bare : nextNumber h.bare = nextNumber h := by
  have hlength : h.bare.files.entries.length = h.files.entries.length := List.length_map _
  rw [nextNumber, nextNumber, hlength, firstFree_bare]
  rfl

/-- Where a workspace is made does not depend on what files hold. -/
theorem make_bare (h : Host) : bared (outcome make h.bare) = bared (outcome make h) := by
  have hfind : h.bare.files.find h.bare.here false (pathOf h (nextNumber h)) =
      (h.files.find h.here false (pathOf h (nextNumber h))).map Found.bare := find_bare
  have hpath : pathOf h.bare (nextNumber h) = pathOf h (nextNumber h) := rfl
  simp only [make, outcome_bind, outcome_get, outcome_set, nextNumber_bare, hfind, hpath]
  rcases h.files.find h.here false (pathOf h (nextNumber h)) with e | ⟨loc, _ | e⟩
  · simp [Except.map, bared, Host.bare]
  · simp only [Except.map, Found.bare, Option.map_none, outcome_bind, outcome_modify, outcome_debug,
      outcome_pure, bared, Host.bare_accept]
    simp [Host.bare, Entry.bare]
  · simp [Except.map, Found.bare, bared, Host.bare]

theorem createFile_bare (directory name : String) (h : Host) :
    bared (outcome (createFile directory name) h.bare) = bared (outcome (createFile directory name) h) := by
  rcases hnul : hasNul (Path.join directory name) with _ | _
  · have hopened : h.bare.files.openForWriting h.bare.here false (Path.join directory name) =
        (h.files.openForWriting h.here false (Path.join directory name)).map fun p => (p.1.bare, p.2) :=
      openForWriting_bare
    rcases hopen : h.files.openForWriting h.here false (Path.join directory name) with e | ⟨files, loc⟩
    · rw [hopen] at hopened
      simp [createFile, hnul, hopen, hopened, outcome_bind, Except.map, bared]
    · rw [hopen] at hopened
      have hwhole := (Host.sameWays_bare h).expandPath_eq (Path.join directory name) true
      rw [outcome_createFile_of_openForWriting hnul hopen,
        outcome_createFile_of_openForWriting hnul hopened, hwhole]
      simp [bared, Host.bare]
  · simp [createFile, hnul, outcome_bind, bared]

/-- The machine without the directory that a path leads to, if it leads to one. -/
def removed (path : String) (h : Host) : Host :=
  match h.files.find h.here false path with
  | .ok ⟨loc, some .directory⟩ => { h with files := h.files.remove loc }
  | _ => h

theorem bare_removed (path : String) (h : Host) : (removed path h).bare = removed path h.bare := by
  have hfind : h.bare.files.find h.bare.here false path =
      (h.files.find h.here false path).map Found.bare := find_bare
  rw [removed, removed, hfind]
  rcases h.files.find h.here false path with e | ⟨loc, _ | e⟩
  · rfl
  · rfl
  · cases e with
    | directory => simp [Except.map, Found.bare, Entry.bare, Host.bare]
    | file | link | shell | sink => rfl

end Workspace

/-- The answer of a script to a launch that comes after `k` others. -/
def Runner.answerAt (script : List Runner.Scripted) (k : Nat) (command : List String) :
    Except Fault Reply :=
  match script[k]?.getD (.exits ⟨0, []⟩) with
  | .exits reply => .ok reply
  | .refuses errno => .error (.os (.on errno (command.headD "")))

namespace Job.Step
open BitcodeWrapper.Action Workspace

variable {h h' : Host}

theorem outcome_launch_scripted (script : List Runner.Scripted) (h : Host) (command : List String)
    (environment : Option Bindings) :
    (launch command environment).outcome (.scripted script) h =
      (Runner.answerAt script h.launches.length command,
        { h with launches := h.launches ++ [⟨command, environment, h.files⟩] }) := by
  rw [outcome_launch]
  simp only [Runner.scripted, outcome_bind, outcome_get, List.length_append, List.length_singleton,
    Nat.add_sub_cancel, Runner.answerAt]
  cases script[h.launches.length]?.getD (.exits ⟨0, []⟩) <;> rfl

/-- What a step answers with a scripted runner, and what is left of the machine after it, depends on what is
left of the machine before it. -/
theorem outcome_bare (script : List Runner.Scripted) (s : Step) (h : Host) :
    bared (s.outcome (.scripted script) h.bare) = bared (s.outcome (.scripted script) h) := by
  cases s with
  | makeWorkspace => exact make_bare h
  | createFile directory name => exact createFile_bare directory name h
  | launch command environment =>
    simp [outcome_launch_scripted, bared, Host.bare]
  | releaseWorkspace retain path =>
    cases retain with
    | true => simp [outcome_retain, bared, Host.bare]
    | false =>
      have hrecorded : (h.bare.accept (h.bare.ownRecord .debug ("Removing temp dir " ++ path))).bare =
          (h.accept (h.ownRecord .debug ("Removing temp dir " ++ path))).bare := by
        rw [Host.bare_accept, Host.bare_accept, Host.bare_bare]
      have hremoved : ∀ h : Host, (releaseWorkspace false path).outcome (.scripted script) h =
          (.ok (), removed path (h.accept (h.ownRecord .debug ("Removing temp dir " ++ path)))) :=
        fun h => outcome_remove (.scripted script) h path
      rw [hremoved, hremoved, bared, bared, bare_removed, bare_removed, hrecorded]
  | environment => simp [outcome_environment, bared, Host.bare]
  | echo output => simp [outcome_echo, bared, Host.bare]
  | log level message => simp [outcome_log, bared, Host.bare_accept]

theorem bared_outcome_eq (script : List Runner.Scripted) (hb : h.bare = h'.bare) (s : Step) :
    bared (s.outcome (.scripted script) h) = bared (s.outcome (.scripted script) h') := by
  rw [← outcome_bare, hb, outcome_bare]

end Job.Step

end BitcodeWrapper
