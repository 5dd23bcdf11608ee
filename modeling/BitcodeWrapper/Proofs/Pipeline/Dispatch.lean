import BitcodeWrapper.Proofs.Compiler.Aside
import BitcodeWrapper.Proofs.Job.History
import BitcodeWrapper.Proofs.Pipeline.Stages

/-! A run from the search for the driver to the exit code: how its result is reported, and the history of
the work in between. -/
namespace BitcodeWrapper.Pipeline
open BitcodeWrapper.Action Job

variable {runner : Runner} {c : Config} {invokedAs : String} {args : Arguments}

/-- A failure becomes its exit code, and one record tells of it. -/
def reported : Except Fault Int × Host → Except Fault Int × Host
  | (.error (.failure cause), h) => (.ok cause.exitCode, h.accept (h.ownRecord .error (report cause)))
  | out => out

/-- The report writes a record and does nothing else. -/
theorem recordsTo_reported (out : Except Fault Int × Host) :
    Host.RecordsTo out.2 (reported out).2 := by
  obtain ⟨(cause | _ | _ | _ | _) | code, h⟩ := out
  · exact .single h _
  all_goals exact .refl

theorem outcome_tryCatch_handle (x : Action Int) (h : Host) :
    outcome (tryCatch x handle) h = reported (outcome x h) := by
  rw [outcome_tryCatch]
  rcases outcome x h with ⟨fault | code, h'⟩
  · cases fault <;> rfl
  · rfl

theorem recordsTo_of_locateDriver (c : Config) (invokedAs : String) (args : Arguments) (h : Host) :
    Host.RecordsTo h (outcome (locateDriver c invokedAs args) h).2 :=
  Compiler.recordsTo_of_locate h _ _

/-- Once the driver is found, a run is its work and the report of how that ended. -/
theorem outcome_dispatch_of_located {h h₁ : Host} {driver : String}
    (hlocated : outcome (locateDriver c invokedAs args) h = (.ok driver, h₁)) :
    outcome (dispatch runner c invokedAs args) h =
      reported (outcome ((work c driver args).run runner) h₁) := by
  simp only [dispatch, outcome_tryCatch_handle, outcome_bind, hlocated]

/-- Without a driver nothing but the report is left. -/
theorem outcome_dispatch_of_refused {h h₁ : Host} {fault : Fault}
    (hrefused : outcome (locateDriver c invokedAs args) h = (.error fault, h₁)) :
    outcome (dispatch runner c invokedAs args) h = reported (.error fault, h₁) := by
  simp only [dispatch, outcome_tryCatch_handle, outcome_bind, hrefused]

/-- The moments of a run: those of its work, once the driver is found. -/
def dispatchHistory (runner : Runner) (c : Config) (invokedAs : String) (args : Arguments)
    (h : Host) : List Moment :=
  match outcome (locateDriver c invokedAs args) h with
  | (.ok driver, h) => (work c driver args).history runner h
  | (.error _, _) => []

/-- A machine with one driver and a directory for workspaces. -/
def oneDriver : Host :=
  .fresh ⟨[(["tmp"], .directory), (["bin"], .directory), (["bin", "clang"], .file [] true)]⟩ []

def oneDriverConfig : Config := ⟨0, some "/bin/clang", "opt", [], [], false, false⟩

def simpleArguments : Arguments := ["-c", "a.c", "-o", "a.o"]

/-- Every command is killed by signal 6. -/
def aborting : Runner := fun _ _ => return ⟨-6, []⟩

end BitcodeWrapper.Pipeline
