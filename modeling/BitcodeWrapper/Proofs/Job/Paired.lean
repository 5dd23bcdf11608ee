import BitcodeWrapper.Proofs.Host.Bare
import BitcodeWrapper.Proofs.Job.Calls

/-! Two jobs that go the same way on machines that differ in their logs, in what their files hold and in what
was launched on them. Where the jobs launch different commands, a scripted runner gives them the same answer
all the same. -/
namespace BitcodeWrapper.Job
open BitcodeWrapper.Action

variable {α β : Type} {script : List Runner.Scripted} {own : Bindings} {n : Nat}

/-- What a launch asks for: a command, and its environment if it has one of its own. -/
abbrev Request : Type := List String × Option Bindings

def Call.request (call : Call) : Request := (call.command, call.environment)

/-- The same reply, or refusals for the same reason of commands that need not be the same. -/
inductive SameReply : Except Fault Reply → Except Fault Reply → Prop
  | same (answer : Except Fault Reply) : SameReply answer answer
  | refused (errno : Errno) (file file' : String) :
      SameReply (.error (.os (.on errno file))) (.error (.os (.on errno file')))

/-- The same fault, or failures of the same stage with the same return code. -/
inductive SameKind : Fault → Fault → Prop
  | same (fault : Fault) : SameKind fault fault
  | stage {e e' : StageError} (stage : e'.stage = e.stage) (code : e'.returnCode = e.returnCode) :
      SameKind (.failure (.stage e)) (.failure (.stage e'))

/-- Values that are related, or faults of the same kind. -/
inductive SameEnd (R : α → α → Prop) : Except Fault α → Except Fault α → Prop
  | ok {a a' : α} (related : R a a') : SameEnd R (.ok a) (.ok a')
  | error {fault fault' : Fault} (kind : SameKind fault fault') : SameEnd R (.error fault) (.error fault')

theorem SameEnd.mono {R R' : α → α → Prop} {result result' : Except Fault α}
    (h : SameEnd R result result') (hmono : ∀ a a', R a a' → R' a a') : SameEnd R' result result' := by
  cases h with
  | ok related => exact .ok (hmono _ _ related)
  | error kind => exact .error kind

/-- Jobs that take the same steps. What records say may differ. The launch that comes after `n` others may
ask for what `Asks n` relates, and as long as the answers are alike the jobs go on together. -/
inductive Paired (own : Bindings) (Asks : Nat → Request → Request → Prop) (Ends : Nat → α → α → Prop) :
    Nat → Job α → Job α → Prop
  | done {n : Nat} {a a' : α} (ends : Ends n a a') : Paired own Asks Ends n (done a) (done a')
  | failed {n : Nat} {fault fault' : Fault} (kind : SameKind fault fault') :
      Paired own Asks Ends n (failed fault) (failed fault')
  | log {n : Nat} {level : Log.Level} {message message' : String} {next next' : Except Fault Unit → Job α}
      (rest : Paired own Asks Ends n (next (.ok ())) (next' (.ok ()))) :
      Paired own Asks Ends n (step (.log level message) next) (step (.log level message') next')
  | environment {n : Nat} {next next' : Except Fault Bindings → Job α}
      (rest : Paired own Asks Ends n (next (.ok own)) (next' (.ok own))) :
      Paired own Asks Ends n (step .environment next) (step .environment next')
  | launch {n : Nat} {command command' : List String} {environment environment' : Option Bindings}
      {next next' : Except Fault Reply → Job α} (asks : Asks n (command, environment) (command', environment'))
      (rest : ∀ answer answer', SameReply answer answer' →
        Paired own Asks Ends (n + 1) (next answer) (next' answer')) :
      Paired own Asks Ends n (step (.launch command environment) next)
        (step (.launch command' environment') next')
  | same {n : Nat} {s : Step} {next next' : Except Fault s.Answer → Job α}
      (noLaunch : ∀ answer, Event.call? ⟨s, answer⟩ = none)
      (rest : ∀ answer, Paired own Asks Ends n (next answer) (next' answer)) :
      Paired own Asks Ends n (step s next) (step s next')

section build
variable {Asks : Nat → Request → Request → Prop} {Ends : Nat → α → α → Prop} {Ends' : Nat → β → β → Prop}

theorem paired_bind {x x' : Job α} {f f' : α → Job β} (hx : Paired own Asks Ends n x x')
    (hf : ∀ m a a', Ends m a a' → Paired own Asks Ends' m (f a) (f' a')) :
    Paired own Asks Ends' n (x >>= f) (x' >>= f') := by
  change Paired own Asks Ends' n (bind x f) (bind x' f')
  induction hx with
  | done ends => exact hf _ _ _ ends
  | failed kind => exact .failed kind
  | log rest ih => exact .log ih
  | environment rest ih => exact .environment ih
  | launch asks rest ih => exact .launch asks ih
  | same noLaunch rest ih => exact .same noLaunch ih

theorem paired_attempt {x x' : Job α} (hx : Paired own Asks Ends n x x') :
    Paired own Asks (fun m => SameEnd (Ends m)) n (attempt x) (attempt x') := by
  induction hx with
  | done ends => exact .done (.ok ends)
  | failed kind => exact .done (.error kind)
  | log rest ih => exact .log ih
  | environment rest ih => exact .environment ih
  | launch asks rest ih => exact .launch asks ih
  | same noLaunch rest ih => exact .same noLaunch ih

theorem paired_ofExcept {r r' : Except Fault α} (h : SameEnd (Ends n) r r') :
    Paired own Asks Ends n (ofExcept r) (ofExcept r') := by
  cases h with
  | ok related => exact .done related
  | error kind => exact .failed kind

/-- A step that is no launch is answered alike. -/
theorem paired_ask_bind (s : Step) (noLaunch : ∀ answer, Event.call? ⟨s, answer⟩ = none)
    {f f' : s.Answer → Job α} (hf : ∀ a, Paired own Asks Ends n (f a) (f' a)) :
    Paired own Asks Ends n (ask s >>= f) (ask s >>= f') := by
  refine .same noLaunch fun answer => ?_
  cases answer with
  | ok a => exact hf a
  | error fault => exact .failed (.same fault)

theorem paired_log_bind {level : Log.Level} {message message' : String} {f f' : Unit → Job α}
    (hf : Paired own Asks Ends n (f ()) (f' ())) :
    Paired own Asks Ends n (Job.log level message >>= f) (Job.log level message' >>= f') :=
  .log hf

theorem paired_environment_bind {f f' : Bindings → Job α} (hf : Paired own Asks Ends n (f own) (f' own)) :
    Paired own Asks Ends n (Job.environment >>= f) (Job.environment >>= f') :=
  .environment hf

/-- The two launches at a place, with their answers as results. -/
theorem paired_launch {command command' : List String} {environment environment' : Option Bindings}
    (asks : Asks n (command, environment) (command', environment')) :
    Paired own Asks (fun m answer answer' => m = n + 1 ∧ SameReply answer answer') n
      (attempt (Job.launch command environment)) (attempt (Job.launch command' environment')) := by
  refine .launch asks fun answer answer' hsame => ?_
  rcases answer with fault | reply <;> rcases answer' with fault' | reply' <;> exact .done ⟨rfl, hsame⟩

end build

/-- Calls made in turn that ask for what `Asks` relates and are answered alike. -/
inductive InStep (Asks : Nat → Request → Request → Prop) : Nat → List Call → List Call → Prop
  | nil {n : Nat} : InStep Asks n [] []
  | cons {n : Nat} {call call' : Call} {cs cs' : List Call} (asks : Asks n call.request call'.request)
      (replies : SameReply call.answer call'.answer) (rest : InStep Asks (n + 1) cs cs') :
      InStep Asks n (call :: cs) (call' :: cs')

namespace InStep
variable {Asks : Nat → Request → Request → Prop} {cs cs' : List Call}

theorem length_eq (h : InStep Asks n cs cs') : cs'.length = cs.length := by
  induction h with
  | nil => rfl
  | cons asks replies rest ih => rw [List.length_cons, List.length_cons, ih]

/-- The calls at a place ask for what is related there. -/
theorem asks_of_getElem? (h : InStep Asks n cs cs') {k : Nat} {call call' : Call}
    (hcall : cs[k]? = some call) (hcall' : cs'[k]? = some call') :
    Asks (n + k) call.request call'.request := by
  induction h generalizing k with
  | nil => exact nomatch hcall
  | @cons n _ _ _ _ asks replies rest ih =>
    cases k with
    | zero =>
      cases hcall
      cases hcall'
      exact asks
    | succ k =>
      rw [List.getElem?_cons_succ] at hcall hcall'
      have hrest := ih hcall hcall'
      rwa [Nat.add_right_comm] at hrest

end InStep

theorem sameReply_answerAt (script : List Runner.Scripted) (k : Nat) (command command' : List String) :
    SameReply (Runner.answerAt script k command) (Runner.answerAt script k command') := by
  rw [Runner.answerAt, Runner.answerAt]
  cases script[k]?.getD (.exits ⟨0, []⟩) with
  | exits reply => exact .same _
  | refuses errno => exact .refused errno _ _

/-- A scripted runner touches no environment, and no step sets one. -/
theorem Step.environment_of_outcome (script : List Runner.Scripted) (s : Step) (h : Host) :
    (s.outcome (.scripted script) h).2.environment = h.environment := by
  cases s with
  | makeWorkspace =>
    obtain ⟨cause, ho⟩ | ⟨loc, -, ho⟩ := Workspace.outcome_make h <;> rw [Step.outcome, perform, ho]
    exact Host.environment_accept _ _
  | createFile directory name =>
    obtain ⟨fault, -, ho⟩ | ⟨files, loc, -, ho⟩ := Workspace.outcome_createFile directory name h <;>
      rw [Step.outcome, perform, ho]
  | launch command environment => rw [outcome_launch_scripted]
  | releaseWorkspace retain path =>
    cases retain with
    | true => rfl
    | false =>
      have hrecord := Host.environment_accept h (h.ownRecord .debug ("Removing temp dir " ++ path))
      rw [outcome_remove]
      dsimp only
      split <;> exact hrecord
  | environment => rfl
  | echo output => rfl
  | log level message => exact Host.environment_accept h _

theorem environment_of_run (script : List Runner.Scripted) (j : Job α) (h : Host) :
    (outcome (j.run (.scripted script)) h).2.environment = h.environment := by
  induction j generalizing h with
  | done a => rfl
  | failed fault => rfl
  | step s next ih =>
    rw [outcome_run_step, ih]
    exact Step.environment_of_outcome script s h

theorem calls_events_step (runner : Runner) (s : Step) (next : Except Fault s.Answer → Job α) (h : Host) :
    calls ((step s next).events runner h) =
      (Event.call? ⟨s, (s.outcome runner h).1⟩).toList ++
        calls ((next (s.outcome runner h).1).events runner (s.outcome runner h).2) :=
  calls_cons _ _

/-- Paired jobs end alike on machines of which the same is left, with calls that were made in step. -/
theorem Paired.run (script : List Runner.Scripted) {Asks : Nat → Request → Request → Prop}
    {Ends : Nat → α → α → Prop} {j j' : Job α} (hj : Paired own Asks Ends n j j') {h h' : Host}
    (hb : h.bare = h'.bare) (hown : h.environment = own) :
    SameEnd (fun a a' => ∃ m, Ends m a a') (outcome (j.run (.scripted script)) h).1
        (outcome (j'.run (.scripted script)) h').1 ∧
      InStep Asks n (calls (j.events (.scripted script) h)) (calls (j'.events (.scripted script) h')) := by
  induction hj generalizing h h' with
  | done ends => exact ⟨.ok ⟨_, ends⟩, .nil⟩
  | failed kind => exact ⟨.error kind, .nil⟩
  | @log n level message message' next next' rest ih =>
    rw [outcome_run_step, outcome_run_step, calls_events_step, calls_events_step]
    refine ih ?_ ((Host.environment_accept h _).trans hown)
    exact (Host.bare_accept h _ _).trans (hb ▸ (Host.bare_accept h' _ _).symm)
  | @environment n next next' rest ih =>
    have hown' : h'.environment = own := (congrArg Host.environment hb).symm.trans hown
    rw [outcome_run_step, outcome_run_step, calls_events_step, calls_events_step,
      Step.outcome_environment, Step.outcome_environment, hown, hown']
    exact ih hb hown
  | @launch n command command' environment environment' next next' asks rest ih =>
    rw [outcome_run_step, outcome_run_step, calls_events_step, calls_events_step,
      Step.outcome_launch_scripted, Step.outcome_launch_scripted, Host.length_launches_of_bare hb]
    have hreplies := sameReply_answerAt script h.launches.length command command'
    have hleft : ({ h with launches := h.launches ++ [⟨command, environment, h.files⟩] } : Host).bare =
        ({ h' with launches := h'.launches ++ [⟨command', environment', h'.files⟩] } : Host).bare := by
      rw [Host.bare_withLaunch, Host.bare_withLaunch, hb]
    obtain ⟨hend, hsteps⟩ := ih _ _ hreplies hleft hown
    exact ⟨hend, .cons asks hreplies hsteps⟩
  | @same n s next next' noLaunch rest ih =>
    have hout := Step.bared_outcome_eq script hb s
    obtain ⟨hanswer, hleft⟩ := Prod.mk.inj hout
    rw [outcome_run_step, outcome_run_step, calls_events_step, calls_events_step, noLaunch, noLaunch,
      ← hanswer]
    exact ih _ hleft ((Step.environment_of_outcome script s h).trans hown)

end BitcodeWrapper.Job
