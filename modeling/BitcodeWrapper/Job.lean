import BitcodeWrapper.Runner
import BitcodeWrapper.Workspace

/-!
Jobs: computations cut into the steps that touch the machine. A job is a tree whose branches are the
answers to its next step, so that the steps of several jobs can take turns.
-/
namespace BitcodeWrapper

inductive Job.Step where
  | makeWorkspace
  | createFile (directory name : String)
  | launch (command : List String) (environment : Option Bindings)
  | releaseWorkspace (retain : Bool) (path : String)
  | environment
  | echo (output : Bytes)
  | log (level : Log.Level) (message : String)

namespace Job.Step

abbrev Answer : Step → Type
  | makeWorkspace => String
  | createFile _ _ => String
  | launch _ _ => Reply
  | releaseWorkspace _ _ => Unit
  | environment => Bindings
  | echo _ => Unit
  | log _ _ => Unit

def perform (runner : Runner) : (s : Step) → Action s.Answer
  | makeWorkspace => Workspace.make
  | createFile directory name => Workspace.createFile directory name
  | launch command env => runner.launch command env
  | releaseWorkspace retain path => Workspace.release retain (some path)
  | environment => return (← get).environment
  | echo output => Action.echo true output
  | log level message => Action.log level message

end Job.Step

inductive Job (α : Type) where
  | done (a : α)
  | failed (fault : Fault)
  | step (s : Job.Step) (next : Except Fault s.Answer → Job α)

namespace Job

variable {α β : Type}

def bind : Job α → (α → Job β) → Job β
  | done a, f => f a
  | failed fault, _ => failed fault
  | step s next, f => step s fun r => bind (next r) f

instance : Monad Job where
  pure := done
  bind := bind

/-- A job that cannot fail: a fault becomes its result. -/
def attempt : Job α → Job (Except Fault α)
  | done a => done (.ok a)
  | failed fault => done (.error fault)
  | step s next => step s fun r => attempt (next r)

def ofExcept : Except Fault α → Job α
  | .ok a => done a
  | .error fault => failed fault

def ask (s : Step) : Job s.Answer := step s ofExcept

def fail (cause : Failure) : Job α := failed (.failure cause)

def makeWorkspace : Job String := ask .makeWorkspace

def createFile (directory name : String) : Job String := ask (.createFile directory name)

def launch (command : List String) (environment : Option Bindings) : Job Reply :=
  ask (.launch command environment)

def releaseWorkspace (retain : Bool) (path : String) : Job Unit :=
  ask (.releaseWorkspace retain path)

def environment : Job Bindings := ask .environment

def echo (output : Bytes) : Job Unit := ask (.echo output)

def log (level : Log.Level) (message : String) : Job Unit := ask (.log level message)

def debug (message : String) : Job Unit := log .debug message

/-- Does `body` inside a new workspace, which is released however `body` ends. -/
def withWorkspace (retain : Bool) (body : String → Job α) : Job α := do
  let path ← makeWorkspace
  let result ← attempt (body path)
  releaseWorkspace retain path
  ofExcept result

/-- The next step of a job on its own machine, if it is not at its end. -/
def advance (runner : Runner) : Job α → Host → Option (Job α × Host)
  | done _, _ => none
  | failed _, _ => none
  | step s next, h =>
    match (s.perform runner).run h with
    | .ok a h => some (next (.ok a), h)
    | .error fault h => some (next (.error fault), h)

/-- All steps of a job, one after the other. -/
def run (runner : Runner) : Job α → Action α
  | done a => pure a
  | failed fault => throw fault
  | step s next => fun h =>
    match (s.perform runner).run h with
    | .ok a h => run runner (next (.ok a)) h
    | .error fault h => run runner (next (.error fault)) h

instance : LawfulMonad Job := LawfulMonad.mk' Job
  (fun x => by
    induction x with
    | done a => rfl
    | failed fault => rfl
    | step s next ih => exact congrArg (step s) (funext ih))
  (fun _ _ => rfl)
  (fun x f g => by
    induction x with
    | done a => rfl
    | failed fault => rfl
    | step s next ih => exact congrArg (step s) (funext ih))

end Job

end BitcodeWrapper
