import BitcodeWrapper.Proofs.Job.Events

/-! The events of a job that others can see: workspaces, files and launches. Records come and go between
them without changing what is done. -/
namespace BitcodeWrapper.Job

variable {α β : Type}

def Event.isVisible : Event → Bool
  | ⟨.makeWorkspace, _⟩ | ⟨.createFile _ _, _⟩ | ⟨.launch _ _, _⟩ | ⟨.releaseWorkspace _ _, _⟩ => true
  | ⟨.environment, _⟩ | ⟨.echo _, _⟩ | ⟨.log _ _, _⟩ => false

/-- A job can go through events of which these are visible and end in this result. -/
def Shows (j : Job α) (vs : List Event) (r : Except Fault α) : Prop :=
  ∃ es, Follows j es r ∧ es.filter (·.isVisible) = vs

theorem Follows.shows {j : Job α} {es : List Event} {r : Except Fault α} (h : Follows j es r) :
    Shows j (es.filter (·.isVisible)) r :=
  ⟨es, h, rfl⟩

theorem shows_pure_iff {a : α} {vs : List Event} {r : Except Fault α} :
    Shows (pure a) vs r ↔ vs = [] ∧ r = .ok a := by
  simp only [Shows, follows_pure_iff]
  constructor
  · rintro ⟨_, ⟨rfl, rfl⟩, rfl⟩
    exact ⟨rfl, rfl⟩
  · rintro ⟨rfl, rfl⟩
    exact ⟨[], ⟨rfl, rfl⟩, rfl⟩

theorem shows_failed_iff {fault : Fault} {vs : List Event} {r : Except Fault α} :
    Shows (failed fault) vs r ↔ vs = [] ∧ r = .error fault := by
  simp only [Shows, follows_failed_iff]
  constructor
  · rintro ⟨_, ⟨rfl, rfl⟩, rfl⟩
    exact ⟨rfl, rfl⟩
  · rintro ⟨rfl, rfl⟩
    exact ⟨[], ⟨rfl, rfl⟩, rfl⟩

theorem shows_fail_iff {cause : Failure} {vs : List Event} {r : Except Fault α} :
    Shows (fail cause) vs r ↔ vs = [] ∧ r = .error (.failure cause) :=
  shows_failed_iff

theorem shows_createFile_iff {directory name : String} {vs : List Event} {r : Except Fault String} :
    Shows (createFile directory name) vs r ↔ vs = [⟨.createFile directory name, r⟩] ∧
      ∀ fault, r = .error fault → (Step.createFile directory name).CanFail fault := by
  simp only [Shows, follows_createFile_iff]
  constructor
  · rintro ⟨_, ⟨rfl, possible⟩, rfl⟩
    exact ⟨rfl, possible⟩
  · rintro ⟨rfl, possible⟩
    exact ⟨_, ⟨rfl, possible⟩, rfl⟩

theorem shows_launch_iff {command : List String} {environment : Option Bindings}
    {vs : List Event} {r : Except Fault Reply} :
    Shows (launch command environment) vs r ↔ vs = [⟨.launch command environment, r⟩] := by
  simp only [Shows, follows_launch_iff]
  constructor
  · rintro ⟨_, rfl, rfl⟩
    rfl
  · rintro rfl
    exact ⟨_, rfl, rfl⟩

theorem shows_attempt_iff {x : Job α} {vs : List Event} {r : Except Fault (Except Fault α)} :
    Shows (attempt x) vs r ↔ ∃ r', r = .ok r' ∧ Shows x vs r' := by
  simp only [Shows, follows_attempt_iff]
  constructor
  · rintro ⟨es, ⟨r', rfl, h⟩, rfl⟩
    exact ⟨r', rfl, es, h, rfl⟩
  · rintro ⟨r', rfl, es, h, rfl⟩
    exact ⟨es, ⟨r', rfl, h⟩, rfl⟩

theorem shows_bind_iff {x : Job α} {f : α → Job β} {vs : List Event} {r : Except Fault β} :
    Shows (x >>= f) vs r ↔
      (∃ fault, Shows x vs (.error fault) ∧ r = .error fault) ∨
        ∃ a vs₁ vs₂, vs = vs₁ ++ vs₂ ∧ Shows x vs₁ (.ok a) ∧ Shows (f a) vs₂ r := by
  simp only [Shows, follows_bind_iff]
  constructor
  · rintro ⟨es, ⟨fault, h, rfl⟩ | ⟨a, es₁, es₂, rfl, h₁, h₂⟩, rfl⟩
    · exact .inl ⟨fault, ⟨es, h, rfl⟩, rfl⟩
    · exact .inr ⟨a, _, _, List.filter_append es₁ es₂, ⟨es₁, h₁, rfl⟩, ⟨es₂, h₂, rfl⟩⟩
  · rintro (⟨fault, ⟨es, h, rfl⟩, rfl⟩ | ⟨a, _, _, rfl, ⟨es₁, h₁, rfl⟩, ⟨es₂, h₂, rfl⟩⟩)
    · exact ⟨es, .inl ⟨fault, h, rfl⟩, rfl⟩
    · exact ⟨es₁ ++ es₂, .inr ⟨a, es₁, es₂, rfl, h₁, h₂⟩, List.filter_append es₁ es₂⟩

/-- A job that cannot fail and shows nothing only hands its result on. -/
theorem shows_quiet_bind_iff {x : Job α} {P : α → Prop}
    (quiet : ∀ vs r, Shows x vs r ↔ vs = [] ∧ ∃ a, P a ∧ r = .ok a) {f : α → Job β}
    {vs : List Event} {r : Except Fault β} :
    Shows (x >>= f) vs r ↔ ∃ a, P a ∧ Shows (f a) vs r := by
  simp only [shows_bind_iff, quiet]
  constructor
  · rintro (⟨_, ⟨-, _, -, ⟨⟩⟩, -⟩ | ⟨a, _, _, rfl, ⟨rfl, _, ha, ⟨⟩⟩, h⟩)
    exact ⟨a, ha, h⟩
  · rintro ⟨a, ha, h⟩
    exact .inr ⟨a, [], vs, rfl, ⟨rfl, a, ha, rfl⟩, h⟩

/-- What follows a job in silence only works on its value. -/
theorem shows_bind_quiet_iff {x : Job α} {f : α → Job β} {g : α → β}
    (quiet : ∀ a vs r, Shows (f a) vs r ↔ vs = [] ∧ r = .ok (g a)) {vs : List Event}
    {r : Except Fault β} :
    Shows (x >>= f) vs r ↔ ∃ r', Shows x vs r' ∧ r = r'.map g := by
  simp only [shows_bind_iff, quiet]
  constructor
  · rintro (⟨fault, h, rfl⟩ | ⟨a, vs, _, rfl, h, rfl, rfl⟩)
    · exact ⟨.error fault, h, rfl⟩
    · exact ⟨.ok a, by rwa [List.append_nil], rfl⟩
  · rintro ⟨fault | a, h, rfl⟩
    · exact .inl ⟨fault, h, rfl⟩
    · exact .inr ⟨a, vs, [], (List.append_nil vs).symm, h, rfl, rfl⟩

theorem shows_log_bind_iff {level : Log.Level} {message : String} {f : Unit → Job β}
    {vs : List Event} {r : Except Fault β} :
    Shows (log level message >>= f) vs r ↔ Shows (f ()) vs r := by
  rw [shows_quiet_bind_iff (P := fun _ => True)]
  · exact ⟨fun ⟨_, _, h⟩ => h, fun h => ⟨(), trivial, h⟩⟩
  · intro vs r
    simp only [Shows, follows_log_iff]
    constructor
    · rintro ⟨_, ⟨rfl, rfl⟩, rfl⟩
      exact ⟨rfl, (), trivial, rfl⟩
    · rintro ⟨rfl, _, -, rfl⟩
      exact ⟨_, ⟨rfl, rfl⟩, rfl⟩

theorem shows_echo_bind_iff {output : Bytes} {f : Unit → Job β} {vs : List Event}
    {r : Except Fault β} :
    Shows (echo output >>= f) vs r ↔ Shows (f ()) vs r := by
  rw [shows_quiet_bind_iff (P := fun _ => True)]
  · exact ⟨fun ⟨_, _, h⟩ => h, fun h => ⟨(), trivial, h⟩⟩
  · intro vs r
    simp only [Shows, follows_echo_iff]
    constructor
    · rintro ⟨_, ⟨rfl, rfl⟩, rfl⟩
      exact ⟨rfl, (), trivial, rfl⟩
    · rintro ⟨rfl, _, -, rfl⟩
      exact ⟨_, ⟨rfl, rfl⟩, rfl⟩

theorem shows_environment_bind_iff {f : Bindings → Job β} {vs : List Event} {r : Except Fault β} :
    Shows (environment >>= f) vs r ↔ ∃ own, Shows (f own) vs r := by
  rw [shows_quiet_bind_iff (P := fun _ => True)]
  · simp only [true_and]
  · intro vs r
    simp only [Shows, follows_environment_iff]
    constructor
    · rintro ⟨_, ⟨own, rfl, rfl⟩, rfl⟩
      exact ⟨rfl, own, trivial, rfl⟩
    · rintro ⟨rfl, own, -, rfl⟩
      exact ⟨_, ⟨own, rfl, rfl⟩, rfl⟩

/-- A job that begins with a file ends there if the file cannot be made. -/
theorem shows_createFile_bind_iff {directory name : String} {f : String → Job β} {vs : List Event}
    {r : Except Fault β} :
    Shows (createFile directory name >>= f) vs r ↔
      (∃ fault, (Step.createFile directory name).CanFail fault ∧
        vs = [⟨.createFile directory name, .error fault⟩] ∧ r = .error fault) ∨
      ∃ path vs', vs = ⟨.createFile directory name, .ok path⟩ :: vs' ∧ Shows (f path) vs' r := by
  simp only [shows_bind_iff, shows_createFile_iff]
  constructor
  · rintro (⟨fault, ⟨rfl, possible⟩, rfl⟩ | ⟨path, _, vs', rfl, ⟨rfl, -⟩, h⟩)
    · exact .inl ⟨fault, possible fault rfl, rfl, rfl⟩
    · exact .inr ⟨path, vs', rfl, h⟩
  · rintro (⟨fault, possible, rfl, rfl⟩ | ⟨path, vs', rfl, h⟩)
    · exact .inl ⟨fault, ⟨rfl, fun _ h => by cases h; exact possible⟩, rfl⟩
    · exact .inr ⟨path, [_], vs', rfl, ⟨rfl, nofun⟩, h⟩

theorem shows_withWorkspace_iff {retain : Bool} {body : String → Job α} {vs : List Event}
    {r : Except Fault α} :
    Shows (withWorkspace retain body) vs r ↔
      (∃ fault, Step.makeWorkspace.CanFail fault ∧
        vs = [⟨.makeWorkspace, .error fault⟩] ∧ r = .error fault) ∨
      ∃ path vs', Shows (body path) vs' r ∧
        vs = ⟨.makeWorkspace, .ok path⟩ :: (vs' ++ [⟨.releaseWorkspace retain path, .ok ()⟩]) := by
  simp only [Shows, follows_withWorkspace_iff]
  constructor
  · rintro ⟨_, ⟨fault, possible, rfl, rfl⟩ | ⟨path, es, h, rfl⟩, rfl⟩
    · exact .inl ⟨fault, possible, rfl, rfl⟩
    · exact .inr ⟨path, _, ⟨es, h, rfl⟩, by simp [Event.isVisible]⟩
  · rintro (⟨fault, possible, rfl, rfl⟩ | ⟨path, _, ⟨es, h, rfl⟩, rfl⟩)
    · exact ⟨_, .inl ⟨fault, possible, rfl, rfl⟩, rfl⟩
    · exact ⟨_, .inr ⟨path, es, h, rfl⟩, by simp [Event.isVisible]⟩

end BitcodeWrapper.Job
