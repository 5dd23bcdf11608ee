import BitcodeWrapper.Proofs.Host.Process
import BitcodeWrapper.Proofs.Host.Ways

/-! Machines that agree on everything but the log. A record that only one of them writes shows in its list of
records, in its diagnostics and in the copy of its log, and nowhere else: paths lead to the same places, the
same programs are found, and a computation that does not read the log goes the same way. -/
namespace BitcodeWrapper

namespace Files
variable {fs fs' : Files} {here loc x : Location} {path : String}

/-- The same entry, or files that may be executed both or neither. -/
inductive Alike : Option Entry → Option Entry → Prop
  | same (e : Option Entry) : Alike e e
  | file (content content' : Bytes) (isExecutable : Bool) :
      Alike (some (.file content isExecutable)) (some (.file content' isExecutable))

namespace Alike
variable {a b c : Option Entry}

theorem symm (h : Alike a b) : Alike b a := by
  cases h with
  | same => exact .same _
  | file content content' isExecutable => exact .file content' content isExecutable

theorem trans (hab : Alike a b) (hbc : Alike b c) : Alike a c := by
  cases hab with
  | same => exact hbc
  | file content content' isExecutable =>
    cases hbc with
    | same => exact .file content content' isExecutable
    | file _ content'' => exact .file content content'' isExecutable

theorem of_kept (h : Kept a b) : Alike a b := by
  cases h with
  | same => exact .same _
  | grown content more isExecutable => exact .file content (content ++ more) isExecutable

theorem eq_passage {e : Entry} (h : Alike (some e) b) (he : IsPassage e) : b = some e := by
  cases h with
  | same => rfl
  | file => exact he.elim

theorem exists_of_some {e : Entry} (h : Alike (some e) b) :
    ∃ e', b = some e' ∧ Entry.mayExecute e' = Entry.mayExecute e := by
  cases h with
  | same => exact ⟨e, rfl, rfl⟩
  | file content content' isExecutable => exact ⟨_, rfl, rfl⟩

end Alike

theorem keepsPassages_of_alike (h : ∀ x, Alike (fs.get? x) (fs'.get? x)) : KeepsPassages fs fs' :=
  fun x _ hx he => (hx ▸ h x).eq_passage he

/-- What is looked up on files that are alike is alike. -/
theorem stat_of_alike (h : ∀ x, Alike (fs.get? x) (fs'.get? x)) {e : Entry}
    (hstat : fs.stat here path = .ok (loc, e)) :
    ∃ e', fs'.stat here path = .ok (loc, e') ∧ Entry.mayExecute e' = Entry.mayExecute e := by
  have hkeeps := keepsPassages_of_alike h
  have hkeeps' := keepsPassages_of_alike fun x => (h x).symm
  rcases hfind : fs.find here true path with _ | ⟨loc', _ | found⟩ <;>
    simp only [stat, hfind, reduceCtorEq, Except.ok.injEq, Prod.mk.injEq] at hstat
  obtain ⟨rfl, rfl⟩ := hstat
  obtain ⟨entry, hfind'⟩ := find_of_samePassages hkeeps hkeeps' hfind
  have hbefore : some found = fs.get? loc' := (find_eq_ok_iff.mp hfind).2.2.entry_eq
  have hafter : entry = fs'.get? loc' := (find_eq_ok_iff.mp hfind').2.2.entry_eq
  have hentry : Alike (some found) entry := by
    rw [hbefore, hafter]
    exact h loc'
  obtain ⟨e', rfl, hexecute⟩ := hentry.exists_of_some
  exact ⟨e', stat_of_find hfind', hexecute⟩

theorem pathExists_eq_of_alike (h : ∀ x, Alike (fs.get? x) (fs'.get? x)) :
    fs.pathExists here path = fs'.pathExists here path := by
  have hfound : ∀ {fs fs' : Files}, (∀ x, Alike (fs.get? x) (fs'.get? x)) →
      fs.pathExists here path = true → fs'.pathExists here path = true := by
    intro fs fs' h hexists
    rw [pathExists, Bool.and_eq_true] at hexists ⊢
    refine ⟨hexists.1, ?_⟩
    rcases hstat : fs.stat here path with _ | ⟨loc, e⟩
    · rw [hstat] at hexists
      exact absurd hexists.2 Bool.false_ne_true
    · obtain ⟨e', hstat', -⟩ := stat_of_alike h hstat
      rw [hstat']
      rfl
  exact Bool.eq_iff_iff.mpr ⟨hfound h, hfound fun x => (h x).symm⟩

theorem isProgram_eq_of_alike (h : ∀ x, Alike (fs.get? x) (fs'.get? x)) :
    fs.isProgram here path = fs'.isProgram here path := by
  have hfound : ∀ {fs fs' : Files}, (∀ x, Alike (fs.get? x) (fs'.get? x)) →
      fs.isProgram here path = true → fs'.isProgram here path = true := by
    intro fs fs' h hprogram
    rw [isProgram, Bool.and_eq_true] at hprogram ⊢
    refine ⟨hprogram.1, ?_⟩
    rcases hstat : fs.stat here path with _ | ⟨loc, e⟩
    · rw [hstat] at hprogram
      exact absurd hprogram.2 Bool.false_ne_true
    · obtain ⟨e', hstat', hexecute⟩ := stat_of_alike h hstat
      rw [hstat] at hprogram
      rw [hstat']
      exact hexecute.trans hprogram.2
  exact Bool.eq_iff_iff.mpr ⟨hfound h, hfound fun x => (h x).symm⟩

/-- Nothing is appended elsewhere. -/
theorem get?_append_of_ne {bytes : Bytes} (hx : x ≠ loc) :
    (fs.append loc bytes).get? x = fs.get? x := by
  rw [append]
  split
  · rename_i content isExecutable hfile
    have hroot : loc ≠ [] := ne_root hfile (by simp)
    rw [get?_put _ _ _ _ hroot, if_neg hx]
  · rfl

end Files

/-- What a launch asks for. -/
def Launch.request (l : Launch) : List String × Option Bindings := (l.command, l.environment)

namespace Host
open Files BitcodeWrapper.Action

variable {h h' h'' k k' : Host}

/-- The machines agree on everything but the log. -/
structure Agrees (h h' : Host) : Prop where
  here : h'.here = h.here
  environment : h'.environment = h.environment
  accounts : h'.accounts = h.accounts
  account : h'.account = h.account
  temporary : h'.temporary = h.temporary
  attempts : h'.attempts = h.attempts
  logging : h'.logging = h.logging
  output : h'.output = h.output
  requests : h'.launches.map Launch.request = h.launches.map Launch.request
  elsewhere : ∀ x, h.logging.copyTo ≠ some x → h'.files.get? x = h.files.get? x
  alike : ∀ x, Alike (h.files.get? x) (h'.files.get? x)
  uncopied : h.logging.copyTo = none → h'.files = h.files

namespace Agrees

theorem refl (h : Host) : Agrees h h := by
  constructor
  all_goals intros
  all_goals first | rfl | exact .same _

theorem symm (ha : Agrees h h') : Agrees h' h where
  here := ha.here.symm
  environment := ha.environment.symm
  accounts := ha.accounts.symm
  account := ha.account.symm
  temporary := ha.temporary.symm
  attempts := ha.attempts.symm
  logging := ha.logging.symm
  output := ha.output.symm
  requests := ha.requests.symm
  elsewhere x hx := (ha.elsewhere x (ha.logging ▸ hx)).symm
  alike x := (ha.alike x).symm
  uncopied hcopy := (ha.uncopied (ha.logging ▸ hcopy)).symm

theorem trans (ha : Agrees h h') (ha' : Agrees h' h'') : Agrees h h'' where
  here := ha'.here.trans ha.here
  environment := ha'.environment.trans ha.environment
  accounts := ha'.accounts.trans ha.accounts
  account := ha'.account.trans ha.account
  temporary := ha'.temporary.trans ha.temporary
  attempts := ha'.attempts.trans ha.attempts
  logging := ha'.logging.trans ha.logging
  output := ha'.output.trans ha.output
  requests := ha'.requests.trans ha.requests
  elsewhere x hx := (ha'.elsewhere x (ha.logging.symm ▸ hx)).trans (ha.elsewhere x hx)
  alike x := (ha.alike x).trans (ha'.alike x)
  uncopied hcopy := (ha'.uncopied (ha.logging.symm ▸ hcopy)).trans (ha.uncopied hcopy)

/-- A record is a matter of the log. -/
theorem of_accept (h : Host) (r : Log.Record) : Agrees h (h.accept r) where
  here := here_accept h r
  environment := environment_accept h r
  accounts := accounts_accept h r
  account := account_accept h r
  temporary := temporary_accept h r
  attempts := attempts_accept h r
  logging := logging_accept h r
  output := output_accept h r
  requests := congrArg (List.map _) (launches_accept h r)
  elsewhere x hx := by
    rw [accept]
    split
    · simp only [writeRecord]
      split
      · rename_i loc hcopy
        have hne : x ≠ loc := by
          rintro rfl
          exact hx hcopy
        exact get?_append_of_ne hne
      · rfl
    · rfl
  alike x := .of_kept (kept_accept h r x)
  uncopied hcopy := files_accept_of_copyTo h r hcopy

theorem of_recordsTo (hr : RecordsTo h h') : Agrees h h' := by
  induction hr with
  | refl => exact .refl h
  | accept earlier r ih => exact ih.trans (.of_accept _ r)

/-- Machines that agree still do when either has written records. -/
theorem recordsTo (ha : Agrees h h') (hr : RecordsTo h k) (hr' : RecordsTo h' k') : Agrees k k' :=
  (of_recordsTo hr).symm.trans (ha.trans (of_recordsTo hr'))

theorem accept (ha : Agrees h h') (r r' : Log.Record) : Agrees (h.accept r) (h'.accept r') :=
  ha.recordsTo (.single h r) (.single h' r')

theorem withOutput (ha : Agrees h h') (bytes : Bytes) :
    Agrees { h with output := h.output ++ bytes } { h' with output := h'.output ++ bytes } :=
  { ha with output := congrArg (· ++ bytes) ha.output }

theorem withLaunches (ha : Agrees h h') {ls ls' : List Launch}
    (hls : ls'.map Launch.request = ls.map Launch.request) :
    Agrees { h with launches := ls } { h' with launches := ls' } :=
  { ha with requests := hls }

theorem pathExists_eq (ha : Agrees h h') (path : String) : h'.pathExists path = h.pathExists path := by
  rw [pathExists, pathExists, ha.here]
  exact (pathExists_eq_of_alike ha.alike).symm

theorem isDirectory_eq (ha : Agrees h h') (path : String) : h'.isDirectory path = h.isDirectory path := by
  rw [isDirectory, isDirectory, ha.here]
  exact (isDirectory_eq_of_samePassages (keepsPassages_of_alike ha.alike)
    (keepsPassages_of_alike fun x => (ha.alike x).symm)).symm

theorem findProgram?_eq (ha : Agrees h h') (name : String) : h'.findProgram? name = h.findProgram? name := by
  have hprogram : h'.files.isProgram h'.here = h.files.isProgram h.here := by
    funext path
    rw [ha.here]
    exact (isProgram_eq_of_alike ha.alike).symm
  simp only [findProgram?, ha.environment, hprogram]

end Agrees

end Host

/-- Computations that end alike on machines that agree afterwards. -/
structure Agreeing {α : Type} (out out' : Except Fault α × Host) : Prop where
  result : out'.1 = out.1
  agrees : out.2.Agrees out'.2

/-- Commands do not depend on what was logged, in this way of logging. -/
def Runner.IgnoresLog (runner : Runner) (logging : LogSettings) : Prop :=
  ∀ command h h', h.logging = logging → h.Agrees h' →
    Agreeing (Action.outcome (runner command none) h) (Action.outcome (runner command none) h')

/-- A child runs alike on machines that have the same files. -/
theorem Action.agreeing_spawn {h h' : Host} (ha : h.Agrees h') (hcopy : h.logging.copyTo = none)
    (command : List String) : Agreeing (outcome (spawn command none) h) (outcome (spawn command none) h') := by
  simp only [outcome_spawn, Option.getD_none, ha.here, ha.accounts, ha.environment, ha.uncopied hcopy]
  split
  · split
    · exact ⟨rfl, ha⟩
    · refine ⟨rfl, ?_⟩
      generalize Shell.start _ _ _ _ _ _ = finished
      exact { ha with
        here := rfl
        environment := rfl
        accounts := rfl
        account := ha.account
        elsewhere := fun _ _ => rfl
        alike := fun _ => .same _
        uncopied := fun _ => rfl }
  · exact ⟨rfl, ha⟩

/-- Child processes cannot depend on a log that is not copied to a file. -/
theorem Runner.processes_ignoresLog {logging : LogSettings} (hcopy : logging.copyTo = none) :
    Runner.processes.IgnoresLog logging := by
  rintro command h h' rfl ha
  rw [Runner.outcome_processes, Runner.outcome_processes, Runner.announced, Runner.announced, ha.here]
  generalize h.ownRecord .debug (Log.announcementText ++ _ ++ _ ++ _) = r
  generalize h'.ownRecord .debug (Log.announcementText ++ _ ++ _ ++ _) = r'
  have hspawn := Action.agreeing_spawn (ha.accept r r') ((congrArg _ (Host.logging_accept h r)).trans hcopy)
    command
  rcases hout : Action.outcome (Action.spawn command none) (h.accept r) with ⟨answer, k⟩
  rcases hout' : Action.outcome (Action.spawn command none) (h'.accept r') with ⟨answer', k'⟩
  rw [hout, hout'] at hspawn
  obtain ⟨rfl, hk⟩ : answer' = answer ∧ k.Agrees k' := ⟨hspawn.result, hspawn.agrees⟩
  rcases answer' with (cause | e | _ | _ | _) | finished
  all_goals first | exact ⟨rfl, hk⟩ | exact ⟨rfl, hk.accept _ _⟩

end BitcodeWrapper
