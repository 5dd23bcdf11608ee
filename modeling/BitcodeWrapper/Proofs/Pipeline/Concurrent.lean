import BitcodeWrapper.Proofs.Pipeline.Parties

/-! Compile steps at the same time, a step of one after a step of another in any order. Each of them goes the way
that it goes alone, and leaves what it leaves alone. -/
namespace BitcodeWrapper.Pipeline
open BitcodeWrapper.Action Files Host Job Workspace

variable {ι : Type} {ps : ι → Party} {T : Location} {start : Files} {i k : ι} {p : Pool ι String}
  {states : ι → Job String × Host}

/-- All of them together before the first step. -/
def together (ps : ι → Party) (start : Files) : Pool ι String :=
  ⟨start, fun i => (ps i).job, fun i => (ps i).host⟩

/-- The runner of each. -/
def runners (ps : ι → Party) (i : ι) : Runner := (ps i).runner

/-- All that anybody owns. -/
def possessions (ps : ι → Party) : Set Location := {x | ∃ i, x ∈ (ps i).owned}

/-- All of them together, next to each of them alone. -/
structure Abreast (ps : ι → Party) (start : Files) (p : Pool ι String) (states : ι → Job String × Host) :
    Prop where
  alone : ∀ i, OnCourse ps start i (states i)
  rest : ∀ i, SameOff (ps i).owned (copies ps) start (states i).2.files
  jobs : ∀ i, p.jobs i = (states i).1
  agrees : ∀ i, AgreesOff (others ps i) (copies ps) (states i).2 (p.machine i)
  waysTogether : WaysOff (workspaces ps) start p.files
  restTogether : SameOff (possessions ps) (copies ps) start p.files

theorem Abreast.onCourse (ha : Abreast ps start p states) (i : ι) :
    OnCourse ps start i ((states i).1, p.machine i) where
  keeps := (ha.alone i).keeps
  logging := (ha.agrees i).logging_eq.trans (ha.alone i).logging
  ways := ha.waysTogether

theorem abreast_together (hs : Share ps T start) (tries : ι → Nat) :
    Abreast ps start (together ps start) fun i => ((ps i).job, (ps i).alone start (tries i)) where
  alone i := ⟨hs.placed.keeps_job i, rfl, hs.placed.waysOff_start⟩
  rest _ := .refl start
  jobs _ := rfl
  agrees _ := ⟨rfl, rfl, .refl start⟩
  waysTogether := hs.placed.waysOff_start
  restTogether := .refl start

variable [DecidableEq ι] {schedule : List ι}

/-- A turn of one of them is the same step that it takes alone, and is nothing to the others. -/
theorem Abreast.turn (ha : Abreast ps start p states) (hs : Share ps T start)
    (hgiven : ∀ m ∈ p.nextMoment (runners ps) k, IsGiven (ps k).path m.event)
    (hgiven' : ∀ m ∈ ((states k).1.history (ps k).runner (states k).2).take 1,
      IsGiven (ps k).path m.event) :
    Abreast ps start (p.turn (runners ps) k)
        (Function.update states k (proceed (ps k).runner (states k))) ∧
      List.Forall₂ (SameMoment (ps k).place) (p.nextMoment (runners ps) k)
        (((states k).1.history (ps k).runner (states k).2).take 1) := by
  have hjob := ha.jobs k
  rw [Pool.nextMoment, hjob] at hgiven ⊢
  have hsame := (ha.alone k).sameProceeding (ha.onCourse k) hs (ha.agrees k) hgiven' hgiven
  have hstays := (ha.alone k).staysIn hs hgiven'
  have hstays' := (ha.onCourse k).staysIn hs hgiven
  have hfiles : (p.turn (runners ps) k).files =
      (Job.proceed (ps k).runner ((states k).1, p.machine k)).2.files := by
    rw [Pool.files_turn, hjob]
    rfl
  have hchange : SameOff (ps k).owned (copies ps) p.files (p.turn (runners ps) k).files := by
    rw [hfiles]
    exact hstays'.files
  refine ⟨⟨?_, ?_, ?_, ?_, ?_, ?_⟩, hsame.moment⟩
  · exact (Function.forall_update_iff states fun i state => OnCourse ps start i state).mpr
      ⟨(ha.alone k).proceed hs hgiven', fun i _ => ha.alone i⟩
  · exact (Function.forall_update_iff states fun i (state : Job String × Host) =>
      SameOff (ps i).owned (copies ps) start state.2.files).mpr
        ⟨(ha.rest k).trans hstays.files, fun i _ => ha.rest i⟩
  · refine (Function.forall_update_iff states fun i (state : Job String × Host) =>
      (p.turn (runners ps) k).jobs i = state.1).mpr ⟨?_, fun i hne => ?_⟩
    · rw [Pool.jobs_turn, hjob]
      exact hsame.job
    · rw [Pool.jobs_turn_of_ne hne]
      exact ha.jobs i
  · refine (Function.forall_update_iff states fun i (state : Job String × Host) =>
      AgreesOff (others ps i) (copies ps) state.2 ((p.turn (runners ps) k).machine i)).mpr
        ⟨?_, fun i hne => ?_⟩
    · rw [Pool.machine_turn, hjob]
      exact hsame.agrees
    · rw [Pool.machine_turn_of_ne hne]
      have hothers : (ps k).owned ⊆ others ps i := fun x hx => ⟨k, hne.symm, hx⟩
      exact (ha.agrees i).withFiles ((ha.agrees i).files.trans (hchange.mono hothers))
  · rw [hfiles]
    exact hstays'.ways ha.waysTogether
  · exact ha.restTogether.trans (hchange.mono fun x hx => ⟨k, hx⟩)

/-- However they take their turns, each of them goes through the moments that it goes through alone. -/
theorem Abreast.run (ha : Abreast ps start p states) (hs : Share ps T start)
    (hgiven : ∀ i, ∀ m ∈ Pool.moments (runners ps) i p schedule, IsGiven (ps i).path m.event)
    (hgiven' : ∀ i, ∀ m ∈ (states i).1.history (ps i).runner (states i).2, IsGiven (ps i).path m.event) :
    Abreast ps start (p.run (runners ps) schedule)
        (fun i => (proceed (ps i).runner)^[schedule.count i] (states i)) ∧
      ∀ i, List.Forall₂ (SameMoment (ps i).place) (Pool.moments (runners ps) i p schedule)
        (((states i).1.history (ps i).runner (states i).2).take (schedule.count i)) := by
  -- whoever has the turn takes one step more alone as well, and the rest of its history is due later
  induction schedule generalizing p states with
  | nil => exact ⟨ha, fun i => .nil⟩
  | cons k schedule ih =>
    have hnext : ∀ m ∈ p.nextMoment (runners ps) k, IsGiven (ps k).path m.event := by
      intro m hm
      refine hgiven k m (List.mem_append_left _ ?_)
      rwa [if_pos rfl]
    obtain ⟨hturn, hmoment⟩ := ha.turn hs hnext fun m hm => hgiven' k m (List.mem_of_mem_take hm)
    have hleft : (proceed (ps k).runner (states k)).1.history (ps k).runner
          (proceed (ps k).runner (states k)).2 =
        ((states k).1.history (ps k).runner (states k).2).drop 1 := history_proceed ..
    obtain ⟨hlast, hmoments⟩ := ih hturn (fun i m hm => hgiven i m (List.mem_append_right _ hm)) <| by
      refine (Function.forall_update_iff states fun i (state : Job String × Host) =>
        ∀ m ∈ state.1.history (ps i).runner state.2, IsGiven (ps i).path m.event).mpr
          ⟨fun m hm => ?_, fun i _ => hgiven' i⟩
      rw [hleft] at hm
      exact hgiven' k m (List.mem_of_mem_drop hm)
    constructor
    · have hstates : (fun i => (proceed (ps i).runner)^[schedule.count i]
            (Function.update states k (proceed (ps k).runner (states k)) i)) =
          fun i => (proceed (ps i).runner)^[(k :: schedule).count i] (states i) := by
        funext i
        by_cases hi : i = k
        · subst hi
          rw [Function.update_self, List.count_cons_self, Function.iterate_succ_apply]
        · rw [Function.update_of_ne hi, List.count_cons_of_ne (Ne.symm hi)]
      exact hstates ▸ hlast
    · intro i
      by_cases hi : i = k
      · subst hi
        have hrest := hmoments i
        rw [Function.update_self, hleft] at hrest
        rw [Pool.moments, if_pos rfl, List.count_cons_self, Nat.add_comm, List.take_add]
        exact List.rel_append hmoment hrest
      · have hrest := hmoments i
        rw [Function.update_of_ne hi] at hrest
        rwa [Pool.moments, if_neg (Ne.symm hi), List.nil_append, List.count_cons_of_ne (Ne.symm hi)]

/-- Where each of them gets its workspace at the first try when it is alone, it gets it among the others. -/
theorem Abreast.given (ha : Abreast ps start p states) (hs : Share ps T start)
    (hcount : ∀ i, (ps i).runner.KeepsCount) (hattempts : ∀ i, (p.machine i).attempts = (states i).2.attempts)
    (hfirst : ∀ i, ∀ m ∈ (states i).1.history (ps i).runner (states i).2, AtFirst (ps i).path m) :
    ∀ i, ∀ m ∈ Pool.moments (runners ps) i p schedule, IsGiven (ps i).path m.event := by
  -- `run` takes all moments to come as given, so it does not apply: each turn is shown to be given first
  induction schedule generalizing p states with
  | nil => exact fun i => List.forall_mem_nil _
  | cons k schedule ih =>
    have hnow : ∀ m ∈ ((states k).1.history (ps k).runner (states k).2).take 1, AtFirst (ps k).path m :=
      fun m hm => hfirst k m (List.mem_of_mem_take hm)
    obtain ⟨hgiven, hcounted⟩ := (ha.alone k).given_of_first (ha.onCourse k) hs (ha.agrees k) (hcount k)
      (hattempts k) hnow
    have hnext : ∀ m ∈ p.nextMoment (runners ps) k, IsGiven (ps k).path m.event := by
      rwa [Pool.nextMoment, ha.jobs k]
    obtain ⟨hturn, -⟩ := ha.turn hs hnext fun m hm answer hevent => (hnow m hm answer hevent).1
    have hrest := ih hturn
      ((Function.forall_update_iff states fun i (state : Job String × Host) =>
        ((p.turn (runners ps) k).machine i).attempts = state.2.attempts).mpr ⟨?_, fun i hne => ?_⟩)
      ((Function.forall_update_iff states fun i (state : Job String × Host) =>
        ∀ m ∈ state.1.history (ps i).runner state.2, AtFirst (ps i).path m).mpr
          ⟨fun m hm => ?_, fun i _ => hfirst i⟩)
    · intro i m hm
      rcases List.mem_append.mp hm with hm | hm
      · split at hm
        · subst i
          exact hnext m hm
        · exact nomatch hm
      · exact hrest i m hm
    · rw [Pool.machine_turn, ha.jobs k]
      exact hcounted
    · rw [Pool.machine_turn_of_ne hne]
      exact hattempts i
    · rw [history_proceed] at hm
      exact hfirst k m (List.mem_of_mem_drop hm)

/-- A run that had enough turns ends as it does alone: with the same result, the same files where it owns the
place, and nothing in its workspace unless that is retained. -/
structure EndsAsAlone (ps : ι → Party) (start : Files) (tries : ι → Nat) (p : Pool ι String) (i : ι) :
    Prop where
  result : p.jobs i = ofExcept ((ps i).outcomeAlone start (tries i)).1
  owned : ∀ x ∈ (ps i).owned, p.files.get? x = ((ps i).outcomeAlone start (tries i)).2.files.get? x
  workspace : Leaves (ps i).config.retainsWorkspace (ps i).place p.files
  rest : ∀ x ∉ (ps i).owned, x ∉ copies ps →
    ((ps i).outcomeAlone start (tries i)).2.files.get? x = start.get? x

/-- Runs that take turns: each one goes through the moments that it goes through alone, with the same entries
in its workspace, and all that it owns is in the end as it leaves it alone. Nothing changes elsewhere. -/
structure RunAsAlone (ps : ι → Party) (start : Files) (tries : ι → Nat) (schedule : List ι) : Prop where
  moments : ∀ i, List.Forall₂ (SameMoment (ps i).place)
    (Pool.moments (runners ps) i (together ps start) schedule)
    (((ps i).history start (tries i)).take (schedule.count i))
  ends : ∀ i, ((ps i).history start (tries i)).length ≤ schedule.count i →
    EndsAsAlone ps start tries ((together ps start).run (runners ps) schedule) i
  rest : ∀ x ∉ possessions ps, x ∉ copies ps →
    ((together ps start).run (runners ps) schedule).files.get? x = start.get? x

/-- Compile steps with workspaces of their own do not notice each other. -/
theorem compile_runs_as_alone (hs : Share ps T start) (tries : ι → Nat) (schedule : List ι)
    (hgiven : ∀ i, ∀ m ∈ Pool.moments (runners ps) i (together ps start) schedule,
      IsGiven (ps i).path m.event)
    (hgiven' : ∀ i, ∀ m ∈ (ps i).history start (tries i), IsGiven (ps i).path m.event) :
    RunAsAlone ps start tries schedule := by
  obtain ⟨hlast, hmoments⟩ := (abreast_together hs tries).run hs hgiven hgiven'
  refine ⟨hmoments, fun i henough => ?_, hlast.restTogether.same⟩
  have hstate := proceed_iterate (ps i).runner henough
  have hjobs := hlast.jobs i
  have hagrees := (hlast.agrees i).files
  have hrest := hlast.rest i
  simp only [hstate] at hjobs hagrees hrest
  have hsame : ∀ x ∈ (ps i).owned, ((together ps start).run (runners ps) schedule).files.get? x =
      ((ps i).outcomeAlone start (tries i)).2.files.get? x :=
    fun x hx => hagrees.same x (hs.placed.own hx).1 (hs.placed.own hx).2
  have hleaves := leaves_of_compile (hs.placed.site i) (hs.placed.isClear hs.placed.waysOff_start i)
    (((abreast_together hs tries).alone i).sameWays hs (hgiven' i))
    (passes_history (ps i).runner (ps i).job ((ps i).alone start (tries i)))
    (follows_events (ps i).runner (ps i).job _) (hgiven' i)
  exact ⟨hjobs, hsame, hleaves.congr fun x hx => hsame x (.inl hx), hrest.same⟩

/-- Two compile steps of one source, one of which retains its workspace. -/
def neighbour (b : Bool) : Party where
  runner := writing
  config := { oneDriverConfig with retainsWorkspace := b }
  driver := "/bin/clang"
  args := ["-c", "a.c", "-o", cond b "/b.o" "/a.o"]
  host := { oneDriver with attempts := b.toNat }
  place := ["tmp", cond b "conjunct00000002" "conjunct00000001"]
  objects := {[cond b "b.o" "a.o"]}

theorem outputs_neighbour (b : Bool) : ∀ command ∈ (neighbour b).commands,
    Arguments.valueOf command StageCommand.outputFlag ∈ command ∧
      (Arguments.valueOf command StageCommand.outputFlag ∈ (neighbour b).outputs ∨
        Arguments.valueOf command StageCommand.outputFlag = Location.text [cond b "b.o" "a.o"]) := by
  cases b <;> decide +kernel

theorem isReady_neighbour (b : Bool) :
    IsReady ((neighbour b).alone oneDriver.files b.toNat) (fileName (neighbour b).args) ["tmp"] where
  tree := isReady_oneDriver.tree
  temporary := isReady_oneDriver.temporary
  free := by cases b <;> decide +kernel
  noVariable := by cases b <;> decide +kernel
  noNul := by cases b <;> decide +kernel
  noSlash := by cases b <;> decide +kernel
  notDots := ⟨'a', by cases b <;> decide +kernel, by decide⟩
  fits := by cases b <;> exact ⟨by decide +kernel, by decide +kernel⟩

theorem path_neighbour (b : Bool) :
    pathOf ((neighbour b).alone oneDriver.files b.toNat) (b.toNat + 1) = (neighbour b).path := by
  cases b <;> decide +kernel

theorem atFirst_neighbour (b : Bool) :
    ∀ m ∈ (neighbour b).history oneDriver.files b.toNat, AtFirst (neighbour b).path m := by
  rw [← path_neighbour b]
  exact atFirst_of_isReady (neighbour b).config (neighbour b).driver (isReady_neighbour b)

theorem isTextOf_object (b : Bool) :
    IsTextOf (Location.text [cond b "b.o" "a.o"]) [cond b "b.o" "a.o"] where
  text := rfl
  plain name hname := by
    obtain rfl := List.mem_singleton.mp hname
    cases b <;> exact ⟨by decide, by decide, by decide, by decide⟩

theorem notMem_workspaces (b : Bool) (names : List String) :
    cond b "b.o" "a.o" :: names ∉ workspaces neighbour := by
  rintro ⟨b', hbelow⟩
  have hname : "tmp" = cond b "b.o" "a.o" := (List.cons_prefix_cons.mp hbelow).1
  cases b <;> exact absurd hname (by decide)

/-- Nobody else has anything where one of them puts its object file. -/
theorem notMem_owned {b b' : Bool} (hne : b ≠ b') (names : List String) :
    cond b "b.o" "a.o" :: names ∉ (neighbour b').owned := by
  rintro (hbelow | hobject)
  · exact notMem_workspaces b names ⟨b', hbelow⟩
  · have hname : cond b "b.o" "a.o" = cond b' "b.o" "a.o" := (List.cons.inj hobject).1
    revert hname hne
    cases b <;> cases b' <;> decide

theorem placed_neighbours : Placed neighbour ["tmp"] oneDriver.files where
  temporary := isReady_oneDriver.temporary.directories
  inside b := ⟨_, rfl⟩
  differ := by decide
  plain b name hname := by
    rcases List.mem_cons.mp hname with rfl | hname
    · exact ⟨by decide, by decide, by decide, by decide⟩
    · obtain rfl := List.mem_singleton.mp hname
      cases b <;> exact ⟨by decide, by decide, by decide, by decide⟩
  free b := by
    rintro _ ⟨names, rfl⟩
    exact isReady_oneDriver.tree.get?_append (by cases b <;> decide +kernel) names
  noVariable b := by cases b <;> decide +kernel
  objects := by
    rintro b b' hne x rfl
    exact notMem_owned hne []
  logs := by
    rintro x ⟨b, hcopy⟩
    exact nomatch hcopy

theorem isClear_object (b : Bool) {fs : Files} (hw : WaysOff (workspaces neighbour) oneDriver.files fs) :
    fs.IsClear [cond b "b.o" "a.o"] := by
  refine hw.isClear (fun x hx hne => ?_) ?_
  · have hroot : x = [] := by
      rcases List.prefix_cons_iff.mp hx with hroot | ⟨y, rfl, hy⟩
      · exact hroot
      · exact (hne (by rw [List.prefix_nil.mp hy])).elim
    subst hroot
    refine ⟨?_, get?_root _⟩
    rintro ⟨b', hbelow⟩
    exact nomatch List.prefix_nil.mp hbelow
  · rintro _ ⟨names, rfl⟩ target
    have hfree : oneDriver.files.get? [cond b "b.o" "a.o"] = none := by cases b <;> decide +kernel
    rw [isReady_oneDriver.tree.get?_append hfree]
    exact nofun

theorem share_neighbours : Share neighbour ["tmp"] oneDriver.files where
  placed := placed_neighbours
  writes b command hcommand := by
    obtain ⟨hvalue, hplace⟩ := outputs_neighbour b command hcommand
    refine writesNamed_writing hvalue (hplace.imp_right fun hobject => ?_)
    rw [hobject]
    exact ⟨_, rfl, isTextOf_object b, nofun, fun fs => isClear_object b⟩
  heedless b command hcommand := by
    obtain ⟨-, hplace⟩ := outputs_neighbour b command hcommand
    rcases hplace with houtput | hobject
    · obtain ⟨name, hname, hpath⟩ := Placed.outputs_join b _ houtput
      have htext : IsTextOf (Arguments.valueOf command StageCommand.outputFlag)
          ((neighbour b).place ++ [name]) := hpath ▸ (placed_neighbours.site b).text.join hname
      exact isHeedless_writing htext nofun (fun x hx => placed_neighbours.own (.inl hx))
        fun fs hw => placed_neighbours.isClear hw b
    · have htext : IsTextOf (Arguments.valueOf command StageCommand.outputFlag)
          ([cond b "b.o" "a.o"] ++ []) := hobject ▸ isTextOf_object b
      refine isHeedless_writing htext nofun ?_ fun fs => isClear_object b
      rintro _ ⟨names, rfl⟩
      refine ⟨?_, fun ⟨b', hcopy⟩ => nomatch hcopy⟩
      rintro ⟨b', hne, howned⟩
      exact notMem_owned hne.symm names howned

/-- Whatever the order of their turns, each of the two gets the workspace that it gets alone. -/
theorem given_neighbours (schedule : List Bool) :
    ∀ b, ∀ m ∈ Pool.moments (runners neighbour) b (together neighbour oneDriver.files) schedule,
      IsGiven (neighbour b).path m.event :=
  (abreast_together share_neighbours Bool.toNat).given share_neighbours (fun _ => keepsCount_writing)
    (fun _ => rfl) atFirst_neighbour

/-- The hypotheses hold of two compile steps that take turns, and write their object files side by side. -/
theorem compile_runs_as_alone_neighbours :
    Share neighbour ["tmp"] oneDriver.files ∧
      (∀ b, ∀ m ∈ Pool.moments (runners neighbour) b (together neighbour oneDriver.files)
        (List.replicate 30 [false, true]).flatten, IsGiven (neighbour b).path m.event) ∧
      (∀ b, ∀ m ∈ (neighbour b).history oneDriver.files b.toNat, IsGiven (neighbour b).path m.event) ∧
      RunAsAlone neighbour oneDriver.files Bool.toNat (List.replicate 30 [false, true]).flatten := by
  have hgiven := given_neighbours (List.replicate 30 [false, true]).flatten
  have hgiven' : ∀ b, ∀ m ∈ (neighbour b).history oneDriver.files b.toNat,
      IsGiven (neighbour b).path m.event :=
    fun b m hm answer hevent => (atFirst_neighbour b m hm answer hevent).1
  exact ⟨share_neighbours, hgiven, hgiven',
    compile_runs_as_alone share_neighbours Bool.toNat (List.replicate 30 [false, true]).flatten hgiven hgiven'⟩

end BitcodeWrapper.Pipeline
