import BitcodeWrapper.Proofs.Job.History
import BitcodeWrapper.Proofs.Job.Visible

/-! The commands that a run hands to its runner, with what came of them, and the files that it makes. The
machine's own notes of its launches are these commands. -/
namespace BitcodeWrapper.Job
open BitcodeWrapper.Action

/-- A command handed to the runner, and what came of it. -/
structure Call where
  command : List String
  environment : Option Bindings
  answer : Except Fault Reply

/-- The process ran to its end and had this return code. -/
def Call.Exits (call : Call) (code : Int) : Prop := ∃ output, call.answer = .ok ⟨code, output⟩

/-- The process was not launched. -/
def Call.IsRefused (call : Call) : Prop := ∃ e, call.answer = .error (.os e)

def Event.call? : Event → Option Call
  | ⟨.launch command environment, answer⟩ => some ⟨command, environment, answer⟩
  | _ => none

/-- The path of a file that was made. -/
def Event.file? : Event → Option String
  | ⟨.createFile _ _, .ok path⟩ => some path
  | _ => none

def calls (es : List Event) : List Call := es.filterMap Event.call?

def files (es : List Event) : List String := es.filterMap Event.file?

theorem isVisible_of_call?_isSome {e : Event} (h : e.call?.isSome) : e.isVisible = true := by
  obtain ⟨s, answer⟩ := e
  cases s <;> first | rfl | exact absurd h (by simp [Event.call?])

theorem isVisible_of_file?_isSome {e : Event} (h : e.file?.isSome) : e.isVisible = true := by
  obtain ⟨s, answer⟩ := e
  cases s <;> first | rfl | exact absurd h (by simp [Event.file?])

/-- What is taken from visible events alone can be taken from those. -/
theorem filterMap_visible {γ : Type} {f : Event → Option γ}
    (hf : ∀ e, (f e).isSome → e.isVisible = true) (es : List Event) :
    (es.filter (·.isVisible)).filterMap f = es.filterMap f := by
  induction es with
  | nil => rfl
  | cons e es ih =>
    by_cases hv : e.isVisible = true
    · rw [List.filter_cons_of_pos hv, List.filterMap_cons, List.filterMap_cons, ih]
    · have he : f e = none := Option.not_isSome_iff_eq_none.mp (mt (hf e) hv)
      rw [List.filter_cons_of_neg hv, List.filterMap_cons_none he, ih]

theorem calls_visible (es : List Event) : calls (es.filter (·.isVisible)) = calls es :=
  filterMap_visible (fun _ => isVisible_of_call?_isSome) es

theorem files_visible (es : List Event) : files (es.filter (·.isVisible)) = files es :=
  filterMap_visible (fun _ => isVisible_of_file?_isSome) es

theorem calls_append (es es' : List Event) : calls (es ++ es') = calls es ++ calls es' :=
  List.filterMap_append

theorem files_append (es es' : List Event) : files (es ++ es') = files es ++ files es' :=
  List.filterMap_append

theorem calls_cons (e : Event) (es : List Event) :
    calls (e :: es) = e.call?.toList ++ calls es := by
  simp only [calls, List.filterMap_cons]
  cases e.call? <;> rfl

theorem files_cons (e : Event) (es : List Event) :
    files (e :: es) = e.file?.toList ++ files es := by
  simp only [files, List.filterMap_cons]
  cases e.file? <;> rfl

/-- Making and releasing a workspace are neither calls nor files. -/
theorem calls_aroundWorkspace (retain : Bool) (path : String) (es : List Event) :
    calls (⟨.makeWorkspace, .ok path⟩ :: (es ++ [⟨.releaseWorkspace retain path, .ok ()⟩])) =
      calls es := by
  rw [calls_cons, calls_append]
  exact List.append_nil _

theorem files_aroundWorkspace (retain : Bool) (path : String) (es : List Event) :
    files (⟨.makeWorkspace, .ok path⟩ :: (es ++ [⟨.releaseWorkspace retain path, .ok ()⟩])) =
      files es := by
  rw [files_cons, files_append]
  exact List.append_nil _

/-- What comes of a command is the runner's answer to it. -/
theorem Passes.answer_of_mem_calls {runner : Runner} {h h' : Host} {ms : List Moment}
    (hp : Passes runner h ms h') {call : Call} (hmem : call ∈ calls (ms.map (·.event))) :
    ∃ h, (outcome (runner call.command call.environment) h).1 = call.answer := by
  obtain ⟨event, hevent, hcall⟩ := List.mem_filterMap.mp hmem
  obtain ⟨⟨before, ⟨s, answer⟩, after⟩, hm, rfl⟩ := List.mem_map.mp hevent
  have hout := hp.outcome_of_mem hm
  cases s with
  | launch command environment =>
    obtain rfl := Option.some.inj hcall
    exact ⟨_, congrArg Prod.fst ((Step.outcome_launch runner before command environment).symm.trans hout)⟩
  | _ => exact nomatch hcall

/-- The files that are made have absolute paths. -/
theorem Passes.isAbsolute_of_mem_files {runner : Runner} {h h' : Host} {ms : List Moment}
    (hp : Passes runner h ms h') {path : String} (hmem : path ∈ files (ms.map (·.event))) :
    Path.isAbsolute path = true := by
  obtain ⟨event, hevent, hfile⟩ := List.mem_filterMap.mp hmem
  obtain ⟨⟨before, ⟨s, answer⟩, after⟩, hm, rfl⟩ := List.mem_map.mp hevent
  have hout := hp.outcome_of_mem hm
  cases s with
  | createFile directory name =>
    cases answer with
    | error fault => exact nomatch hfile
    | ok whole =>
      obtain rfl := Option.some.inj hfile
      exact Workspace.isAbsolute_of_createFile hout
  | _ => exact nomatch hfile

/-- A launch is noted, and nothing else is. -/
theorem Step.launches_of_outcome (runner : Runner) (s : Step) (h : Host) :
    (s.outcome runner h).2.launches.map (·.command) =
      h.launches.map (·.command) ++
        (Event.call? ⟨s, (s.outcome runner h).1⟩).toList.map (·.command) := by
  cases s with
  | makeWorkspace =>
    obtain ⟨cause, ho⟩ | ⟨loc, -, ho⟩ := Workspace.outcome_make h <;>
      simp [Step.outcome, perform, ho, Event.call?]
  | createFile directory name =>
    obtain ⟨fault, -, ho⟩ | ⟨files, loc, -, ho⟩ := Workspace.outcome_createFile directory name h <;>
      simp [Step.outcome, perform, ho, Event.call?]
  | launch command environment => simp [outcome_launch, Event.call?]
  | releaseWorkspace retain path =>
    cases retain with
    | true => simp [outcome_retain, Event.call?]
    | false =>
      simp only [outcome_remove, Event.call?]
      split <;> simp
  | environment => simp [outcome_environment, Event.call?]
  | echo output => simp [outcome_echo, Event.call?]
  | log level message => simp [outcome_log, Event.call?]

theorem Passes.launches_eq {runner : Runner} {h h' : Host} {ms : List Moment}
    (hp : Passes runner h ms h') :
    h'.launches.map (·.command) =
      h.launches.map (·.command) ++ (calls (ms.map (·.event))).map (·.command) := by
  induction hp with
  | nil h => simp [calls]
  | cons rest ih =>
    rw [ih, Step.launches_of_outcome, List.map_cons, calls_cons, List.map_append,
      List.append_assoc]

end BitcodeWrapper.Job
