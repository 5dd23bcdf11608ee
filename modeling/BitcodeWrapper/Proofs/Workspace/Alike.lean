import BitcodeWrapper.Proofs.Host.Ways
import BitcodeWrapper.Proofs.Workspace.Contents

/-! Files that are made on machines which look paths up alike: they can be made on both or on neither, and
get the same paths. -/
namespace BitcodeWrapper.Workspace
open BitcodeWrapper.Action Files Job Host

variable {runner : Runner} {h h' : Host} {directory name path : String}

theorem CanOpen.of_sameWays (hw : h.SameWays h') (hopen : CanOpen h directory name) :
    CanOpen h' directory name := by
  obtain ⟨hnul, hopened⟩ := hopen
  obtain ⟨hslash, found, hfind, hentry⟩ := exists_openForWriting_iff.mp hopened
  refine ⟨hnul, exists_openForWriting_iff.mpr ⟨hslash, ?_⟩⟩
  obtain ⟨e, hfind'⟩ := find_of_samePassages hw.keeps hw.keptFrom hfind
  have heq := (find_eq_ok_iff.mp hfind).2.2.entry_eq
  have heq' := (find_eq_ok_iff.mp hfind').2.2.entry_eq
  rw [hw.here]
  refine ⟨_, hfind', ?_⟩
  rintro rfl
  exact hentry (heq.trans (hw.keptFrom _ _ heq'.symm trivial))

/-- A file that is opened gets the path that its name had before. -/
theorem outcome_createFile_of_openForWriting {files : Files} {loc : Location}
    (hnul : hasNul (Path.join directory name) = false)
    (hopened : h.files.openForWriting h.here false (Path.join directory name) = .ok (files, loc)) :
    outcome (createFile directory name) h =
      (fileAnswer (Path.join directory name) (h.expandPath (Path.join directory name) true),
        { h with files := files }) := by
  obtain ⟨-, hdiffers, -⟩ := differsAt_of_openForWriting hopened
  have hwhole := (SameWays.of_differsAt hdiffers).expandPath_eq (Path.join directory name) true
  simp only [createFile, hnul, Bool.false_eq_true, ↓reduceIte, outcome_bind, outcome_get,
    hopened, outcome_set, ← hwhole]
  rcases he : h.expandPath (Path.join directory name) true with fault | whole
  · obtain rfl | ⟨e, rfl⟩ := fault_of_expandPath he <;> rfl
  · rfl

theorem toOption_fileAnswer (path : String) (r : Except Fault String) :
    (fileAnswer path r).toOption = r.toOption := by
  rcases r with (_ | _ | _ | _ | _) | whole <;> rfl

/-- The path of the file of a name, if that can be made. -/
def pathMade (h : Host) (directory name : String) : Option String :=
  (outcome (createFile directory name) h).1.toOption

theorem pathMade_of_canOpen (hopen : CanOpen h directory name) :
    pathMade h directory name = (h.expandPath (Path.join directory name) true).toOption := by
  obtain ⟨hnul, ⟨files, loc⟩, hopened⟩ := hopen
  rw [pathMade, outcome_createFile_of_openForWriting hnul hopened, toOption_fileAnswer]

theorem pathMade_of_not_canOpen (hopen : ¬ CanOpen h directory name) :
    pathMade h directory name = none := by
  rw [pathMade]
  rcases hout : outcome (createFile directory name) h with ⟨fault | whole, h'⟩
  · rfl
  · exact (hopen (canOpen_of_createFile hout)).elim

theorem pathMade_eq_of_sameWays (hw : h.SameWays h') (directory name : String) :
    pathMade h directory name = pathMade h' directory name := by
  by_cases hopen : CanOpen h directory name
  · rw [pathMade_of_canOpen hopen, pathMade_of_canOpen (hopen.of_sameWays hw), hw.expandPath_eq]
  · rw [pathMade_of_not_canOpen hopen,
      pathMade_of_not_canOpen fun hopen' => hopen (hopen'.of_sameWays hw.symm)]

/-- A new directory at the same place keeps the same ways the same. -/
theorem keepsPassages_put {fs fs' : Files} {W : Location} (hroot : W ≠ [])
    (hkeeps : KeepsPassages fs fs') :
    KeepsPassages (fs.put W .directory) (fs'.put W .directory) := by
  intro x e hx he
  rw [get?_put _ _ _ _ hroot] at hx ⊢
  split at hx
  · rwa [if_pos ‹_›]
  · rw [if_neg ‹_›]
    exact hkeeps x e hx he

/-- Workspaces of the same path stand at the same place. -/
theorem sameWays_of_make {k k' : Host} (hw : h.SameWays h') (hmake : outcome make h = (.ok path, k))
    (hmake' : outcome make h' = (.ok path, k')) : k.SameWays k' := by
  obtain ⟨_, ho⟩ | ⟨W, hfree, ho⟩ := outcome_make h
  · exact nomatch congrArg Prod.fst (hmake.symm.trans ho)
  obtain ⟨_, ho'⟩ | ⟨W', hfree', ho'⟩ := outcome_make h'
  · exact nomatch congrArg Prod.fst (hmake'.symm.trans ho')
  obtain ⟨hpath, rfl⟩ := Prod.mk.inj (hmake.symm.trans ho)
  obtain ⟨hpath', rfl⟩ := Prod.mk.inj (hmake'.symm.trans ho')
  rw [← Except.ok.inj hpath] at hfree
  rw [← Except.ok.inj hpath', hw.here] at hfree'
  obtain ⟨e, hfound⟩ := find_of_samePassages hw.keeps hw.keptFrom hfree
  obtain rfl : W = W' := congrArg Found.location (Except.ok.inj (hfound.symm.trans hfree'))
  have hroot := ne_root (find_eq_ok_iff.mp hfree).2.2.entry_eq.symm nofun
  have hput : SameWays
      { h with attempts := nextNumber h, files := h.files.put W .directory }
      { h' with attempts := nextNumber h', files := h'.files.put W .directory } :=
    ⟨hw.here, hw.environment, hw.accounts, hw.account, keepsPassages_put hroot hw.keeps,
      keepsPassages_put hroot hw.keptFrom⟩
  exact (SameWays.of_accept _ _).symm.trans (hput.trans (.of_accept _ _))

/-- Each step of a job in a workspace keeps the ways, if launches do. -/
theorem sameWays_of_outcome {m : Moment} (hin : InWorkspace path m.event.step)
    (hout : m.event.step.outcome runner m.before = (m.event.answer, m.after))
    (hlaunch : m.event.call?.isSome → m.before.SameWays m.after) : m.before.SameWays m.after := by
  obtain ⟨h, ⟨s, answer⟩, h'⟩ := m
  dsimp only at hin hout hlaunch ⊢
  cases s with
  | makeWorkspace => exact hin.elim
  | releaseWorkspace retain path => exact hin.elim
  | createFile directory name =>
    obtain ⟨rfl, -⟩ | ⟨files, loc, e, rfl, -, hdiffers, -⟩ := differsAt_of_createFile hout
    · exact .refl _
    · exact .of_differsAt hdiffers
  | launch command environment => exact hlaunch rfl
  | environment =>
    cases hout
    exact .refl _
  | echo output =>
    cases hout
    exact ⟨rfl, rfl, rfl, rfl, fun _ _ hx _ => hx, fun _ _ hx _ => hx⟩
  | log level message =>
    cases hout
    exact .of_accept h _

end BitcodeWrapper.Workspace
