import BitcodeWrapper.Proofs.Host.Process
import BitcodeWrapper.Proofs.Path.Text
import BitcodeWrapper.Proofs.Host.Walk

/-! Which file runs when a command is launched. It is the first one of those its name may stand for that
starts, and a command whose name leads to none is refused. -/
namespace BitcodeWrapper

namespace Files
variable {fs : Files} {here : Location} {lengths lengths' : List Nat} {path : String} {args shellArgs : List String}
  {load load' : Load} {depth : Nat} {loc : Location}

theorem isOk_iff {ε α : Type} {x : Except ε α} : x.isOk = true ↔ ∃ a, x = .ok a := by
  cases x with
  | error e => exact iff_of_false nofun fun ⟨_, hx⟩ => nomatch hx
  | ok a => exact iff_of_true rfl ⟨a, rfl⟩

/-- A file that starts is the shell itself, or a script whose interpreter starts. Either way the shell runs in
the end, with these arguments. -/
inductive Starts (fs : Files) (here : Location) : (depth : Nat) → Load → (path : String) → (args : List String) →
    (shellArgs : List String) → Prop
  | shell {depth : Nat} {load : Load} {path : String} {args : List String} {loc : Location}
      (isShell : fs.stat here path = .ok (loc, .shell)) (fits : load.isTooGreat = false) :
      Starts fs here depth load path args args
  | script {depth : Nat} {load : Load} {path program : String} {args given shellArgs : List String}
      {option : Option String} {loc : Location} {content : Bytes}
      (isFile : fs.stat here path = .ok (loc, .file content true)) (fits : load.isTooGreat = false)
      (names : interpreter? content = some (program, option))
      (isGiven : program :: option.toList ++ [path] = given)
      (starts : Starts fs here depth (load.swap (args.take 1) given) program (given ++ args.drop 1) shellArgs) :
      Starts fs here (depth + 1) load path args shellArgs

theorem execute_eq_ok_iff :
    fs.execute here depth load path args = .ok shellArgs ↔ fs.Starts here depth load path args shellArgs := by
  constructor
  · intro hok
    fun_induction fs.execute here depth load path args with
    | case3 depth load path args loc hstat hfits =>
      cases hok
      exact .shell hstat (Bool.eq_false_iff.mpr hfits)
    | case8 load path args loc content isExecutable hstat hexecutable hfits program option hnames depth given ih =>
      simp only [Bool.not_eq_true, Bool.not_eq_false'] at hexecutable
      subst hexecutable
      exact .script hstat (Bool.eq_false_iff.mpr hfits) hnames rfl (ih hok)
    | case1 | case2 | case4 | case5 | case6 | case7 | case9 => exact nomatch hok
  · intro hstarts
    induction hstarts with
    | shell isShell fits => simp [execute, isShell, fits]
    | script isFile fits names isGiven starts ih =>
      subst isGiven
      simp only [execute, isFile, fits, names, ih, Bool.not_true, Bool.false_eq_true, ↓reduceIte]

/-- What takes less room starts where something that takes more does. -/
theorem isTooGreat_mono (hlongest : load.longest ≤ load'.longest) (hroom : load.room ≤ load'.room)
    (hfits : load'.isTooGreat = false) : load.isTooGreat = false := by
  simp only [Load.isTooGreat, Bool.or_eq_false_iff, decide_eq_false_iff_not, Nat.not_lt] at hfits ⊢
  omega

theorem room_swap_le {a b : String} (given : List String)
    (hnamed : load.room + b.utf8ByteSize ≤ load'.room + a.utf8ByteSize) :
    (load.swap [a] given).room ≤ (load'.swap [b] given).room := by
  simp only [Load.swap, List.foldl_cons, List.foldl_nil]
  omega

/-- A file that starts under a name starts under a shorter one. -/
theorem Starts.mono {a b : String} {rest : List String} (hlongest : load.longest ≤ load'.longest)
    (hroom : load.room ≤ load'.room) (hnamed : load.room + b.utf8ByteSize ≤ load'.room + a.utf8ByteSize)
    (hstarts : fs.Starts here depth load' path (b :: rest) shellArgs) :
    ∃ shellArgs, fs.Starts here depth load path (a :: rest) shellArgs := by
  generalize hargs : b :: rest = args at hstarts
  induction hstarts generalizing load a b rest with
  | shell isShell fits => exact ⟨_, .shell isShell (isTooGreat_mono hlongest hroom fits)⟩
  | @script _ load' path program _ _ _ option _ _ isFile fits names isGiven starts ih =>
    subst hargs isGiven
    -- The interpreter has the same name on both sides.
    have hswap := room_swap_le (program :: option.toList ++ [path]) hnamed
    obtain ⟨shellArgs, hprogram⟩ := @ih (load.swap [a] (program :: option.toList ++ [path])) program program
      _ hlongest hswap (Nat.add_le_add_right hswap _) rfl
    exact ⟨shellArgs, .script isFile (isTooGreat_mono hlongest hroom fits) names rfl hprogram⟩

theorem foldl_max_mono {a b : Nat} (hle : a ≤ b) (lengths : List Nat) :
    lengths.foldl max a ≤ lengths.foldl max b := by
  induction lengths generalizing a b with
  | nil => exact hle
  | cons length lengths ih => exact ih (by omega)

theorem room_ofLengths (lengths : List Nat) (room : Nat) :
    lengths.foldl (fun n length => n + length + 9) room =
      room + lengths.foldl (fun n length => n + length + 9) 0 := by
  induction lengths generalizing room with
  | nil => rfl
  | cons length lengths ih =>
    rw [List.foldl_cons, List.foldl_cons, ih, ih (0 + length + 9)]
    omega

/-- A program that starts under a name starts under a shorter one. -/
theorem isOk_start_mono {a b : String} {rest : List String} (hle : a.utf8ByteSize ≤ b.utf8ByteSize)
    (hok : (fs.start here (b.utf8ByteSize :: lengths) path (b :: rest)).isOk = true) :
    (fs.start here (a.utf8ByteSize :: lengths) path (a :: rest)).isOk = true := by
  obtain ⟨shellArgs, hstart⟩ := isOk_iff.mp hok
  have hstarts : fs.Starts here interpreterLimit ((Load.ofLengths (b.utf8ByteSize :: lengths)).swap [] [path])
      path (b :: rest) shellArgs := execute_eq_ok_iff.mp hstart
  have hlongest : ((Load.ofLengths (a.utf8ByteSize :: lengths)).swap [] [path]).longest ≤
      ((Load.ofLengths (b.utf8ByteSize :: lengths)).swap [] [path]).longest :=
    foldl_max_mono (by omega) lengths
  have hroom : ((Load.ofLengths (a.utf8ByteSize :: lengths)).swap [] [path]).room + b.utf8ByteSize =
      ((Load.ofLengths (b.utf8ByteSize :: lengths)).swap [] [path]).room + a.utf8ByteSize := by
    simp only [Load.ofLengths, Load.swap, List.foldl_cons, List.foldl_nil]
    rw [room_ofLengths, room_ofLengths lengths (0 + b.utf8ByteSize + 9)]
    omega
  obtain ⟨shellArgs, hstarts⟩ := hstarts.mono hlongest (by omega) (Nat.le_of_eq hroom)
  exact isOk_iff.mpr ⟨shellArgs, execute_eq_ok_iff.mpr hstarts⟩

/-- What starts is a program. -/
theorem isProgram_of_start (hnul : hasNul path = false) (hok : (fs.start here lengths path args).isOk = true) :
    fs.isProgram here path = true := by
  obtain ⟨shellArgs, hstart⟩ := isOk_iff.mp hok
  have hstarts := execute_eq_ok_iff.mp hstart
  rw [isProgram, hnul]
  cases hstarts with
  | shell isShell => rw [isShell]; rfl
  | script isFile => rw [isFile]; rfl

/-- The programs are tried until one of them starts. -/
theorem isOk_startFirst {remembered : Option Errno} {last : Errno} {paths : List String} :
    (fs.startFirst here lengths args remembered last paths).isOk =
      paths.any fun path => (fs.start here lengths path args).isOk := by
  induction paths generalizing remembered last with
  | nil => rfl
  | cons path paths ih =>
    rw [List.any_cons, startFirst]
    rcases fs.start here lengths path args with e | shellArgs
    · exact ih
    · rfl

end Files

namespace Host
variable {h : Host} {command : List String} {name path : String}

/-- A file can be started for a command. -/
def startsFor (h : Host) (command : List String) (path : String) : Bool :=
  (h.files.start h.here (textLengths command h.environment) path command).isOk

/-- The file that a command runs. -/
def program? (h : Host) (command : List String) : Option String :=
  (programPaths h.environment (command.headD "")).find? (h.startsFor command)

/-- A name with a slash in it is a path. -/
theorem programPaths_of_slash (hslash : Path.slash ∈ name.toList) (environment : Bindings) :
    programPaths environment name = [name] := by
  have hdirectory : Path.directory name ≠ "" := fun hnone => Path.directory_eq_empty_iff.mp hnone hslash
  rw [programPaths, if_pos (bne_iff_ne.mpr hdirectory)]

theorem programPaths_of_notMem (hslash : Path.slash ∉ name.toList) (environment : Bindings) :
    programPaths environment name =
      (searchDirectories ((environment.get? searchVariable).getD standardSearch)).map fun d =>
        Path.join d name := by
  rw [programPaths, Path.directory_eq_empty_iff.mpr hslash]
  rfl

/-- The same files are gone through when a program is looked up, unless there is no list to search. -/
theorem findProgram?_of_notMem (hslash : Path.slash ∉ name.toList) : h.findProgram? name =
    if (h.environment.get? searchVariable).getD standardSearch = "" then none
    else (programPaths h.environment name).find? (h.files.isProgram h.here) := by
  rw [findProgram?, Path.directory_eq_empty_iff.mpr hslash, programPaths_of_notMem hslash]
  rfl

theorem program?_of_slash (hslash : Path.slash ∈ name.toList) (args : List String) :
    h.program? (name :: args) = if h.startsFor (name :: args) name = true then some name else none := by
  rw [program?, List.headD_cons, programPaths_of_slash hslash, List.find?_singleton]

/-- A file that starts for a command starts for one with a shorter name. -/
theorem startsFor_mono {other : String} {args : List String} (hle : name.utf8ByteSize ≤ other.utf8ByteSize)
    (hstarts : h.startsFor (other :: args) path = true) : h.startsFor (name :: args) path = true :=
  Files.isOk_start_mono hle hstarts

/-- Where no path leads to a program there is nothing to run. -/
theorem program?_eq_none (hpaths : ∀ path ∈ programPaths h.environment (command.headD ""),
    Files.hasNul path = false ∧ h.files.isProgram h.here path = false) : h.program? command = none := by
  refine List.find?_eq_none.mpr fun path hmem hok => ?_
  obtain ⟨hnul, hprogram⟩ := hpaths path hmem
  exact absurd ((Files.isProgram_of_start hnul hok).symm.trans hprogram) (by decide)

end Host

namespace Action
variable {command : List String} {h : Host}

/-- A program that starts has the shell run in the end. -/
theorem outcome_spawn_of_start {shellArgs : List String}
    (hpass : Host.isPassable command h.environment = true)
    (hstart : h.files.startFirst h.here (Host.textLengths command h.environment) command none .noSuchFile
      (Host.programPaths h.environment (command.headD "")) = .ok shellArgs) :
    outcome (spawn command none) h =
      let finished := Shell.start Shell.stepLimit h.files h.here h.accounts h.environment shellArgs
      (.ok finished, { h with files := finished.files }) := by
  rw [outcome_spawn]
  dsimp only [Option.getD_none]
  rw [if_pos hpass, hstart]

/-- A command is launched exactly if there is a file for it to run. -/
theorem cases_of_program (hpass : Host.isPassable command h.environment = true) :
    ((h.program? command).isSome = true ∧ ∃ finished, outcome (spawn command none) h =
        (.ok finished, { h with files := finished.files })) ∨
      (h.program? command).isSome = false ∧ ∃ e, outcome (spawn command none) h = (.error (.os e), h) := by
  have hsome : (h.program? command).isSome = (h.files.startFirst h.here
      (Host.textLengths command h.environment) command none .noSuchFile
      (Host.programPaths h.environment (command.headD ""))).isOk := by
    rw [Host.program?, List.isSome_find?, Files.isOk_startFirst]
    rfl
  rw [hsome]
  rcases hstart : h.files.startFirst h.here (Host.textLengths command h.environment) command none .noSuchFile
      (Host.programPaths h.environment (command.headD "")) with e | shellArgs
  · refine .inr ⟨rfl, .on e (command.headD ""), ?_⟩
    rw [outcome_spawn]
    dsimp only [Option.getD_none]
    rw [if_pos hpass, hstart]
  · exact .inl ⟨rfl, _, outcome_spawn_of_start hpass hstart⟩

theorem refused_of_program?_eq_none (hpass : Host.isPassable command h.environment = true)
    (hnone : h.program? command = none) : ∃ e, outcome (spawn command none) h = (.error (.os e), h) := by
  obtain ⟨hsome, -⟩ | ⟨-, hspawn⟩ := cases_of_program hpass
  · rw [hnone] at hsome
    exact nomatch hsome
  · exact hspawn

end Action

end BitcodeWrapper
