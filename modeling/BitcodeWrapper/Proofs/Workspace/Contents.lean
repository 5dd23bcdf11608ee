import BitcodeWrapper.Proofs.Host.Direct
import BitcodeWrapper.Proofs.Workspace.Custody

/-! What a workspace holds. Files that are made in it stand under their own names, and stay as long as the
runner takes nothing away. -/
namespace BitcodeWrapper

namespace Files
variable {fs fs' fs'' : Files} {loc : Location}

/-- Nothing is gone, directories are still directories, and there are no new links. -/
structure KeepsEntries (fs fs' : Files) : Prop where
  there : ∀ x, fs.get? x ≠ none → fs'.get? x ≠ none
  directories : ∀ x, fs.get? x = some .directory → fs'.get? x = some .directory
  links : ∀ x target, fs'.get? x = some (.link target) → fs.get? x = some (.link target)

namespace KeepsEntries

theorem refl (fs : Files) : KeepsEntries fs fs where
  there _ := id
  directories _ := id
  links _ _ := id

theorem trans (h : KeepsEntries fs fs') (h' : KeepsEntries fs' fs'') : KeepsEntries fs fs'' where
  there x hx := h'.there x (h.there x hx)
  directories x hx := h'.directories x (h.directories x hx)
  links x target hx := h.links x target (h'.links x target hx)

theorem of_kept (h : ∀ x, Kept (fs.get? x) (fs'.get? x)) : KeepsEntries fs fs' where
  there x hx := by
    rw [← Option.isSome_iff_ne_none] at hx ⊢
    rwa [(h x).isSome_eq]
  directories x hx := (hx ▸ h x).eq_passage trivial
  links x target hx := (hx ▸ h x).of_passage trivial

theorem of_differsAt (h : DiffersAt fs fs' loc) (hloc : fs'.get? loc ≠ none) :
    KeepsEntries fs fs' where
  there x hx := by
    by_cases heq : x = loc
    · exact heq ▸ hloc
    · rwa [h.elsewhere x heq]
  directories x hx := h.keeps x _ hx trivial
  links x target hx := h.keptFrom x _ hx trivial

end KeepsEntries

end Files

namespace Workspace
open BitcodeWrapper.Action Files Job

variable {runner : Runner} {h h' : Host} {path name : String} {W : Location}

/-- The file of a name can be opened in a directory. -/
def CanOpen (h : Host) (directory name : String) : Prop :=
  hasNul (Path.join directory name) = false ∧
    ∃ opened, h.files.openForWriting h.here false (Path.join directory name) = .ok opened

/-- Each step of a job in a workspace keeps all entries, if launches do. -/
theorem keepsEntries_of_outcome {m : Moment} (hin : InWorkspace path m.event.step)
    (hout : m.event.step.outcome runner m.before = (m.event.answer, m.after))
    (hlaunch : m.event.call?.isSome → KeepsEntries m.before.files m.after.files) :
    KeepsEntries m.before.files m.after.files := by
  obtain ⟨h, ⟨s, answer⟩, h'⟩ := m
  dsimp only at hin hout hlaunch ⊢
  cases s with
  | makeWorkspace => exact hin.elim
  | releaseWorkspace retain path => exact hin.elim
  | createFile directory name =>
    obtain ⟨rfl, -⟩ | ⟨files, loc, e, rfl, -, hdiffers, hthere⟩ := differsAt_of_createFile hout
    · exact .refl _
    · exact .of_differsAt hdiffers hthere
  | launch command environment => exact hlaunch rfl
  | environment =>
    cases hout
    exact .refl _
  | echo output =>
    cases hout
    exact .refl _
  | log level message =>
    cases hout
    exact .of_kept (Host.kept_accept h _)

/-- A file that can be opened in a workspace that spells out where it is gets the path it is opened by. -/
theorem createFile_of_canOpen (hd : h.files.IsDirect path W) (hroot : W ≠ [])
    (hdollar : '$' ∉ path.toList) (hname : IsPlain name) (hdollar' : '$' ∉ name.toList)
    (hlink : ∀ target, h.files.get? (W ++ [name]) ≠ some (.link target))
    (hopen : CanOpen h path name) :
    Fits (Path.join path name) (W ++ [name]) ∧ ∃ files, files.get? (W ++ [name]) ≠ none ∧
      outcome (createFile path name) h = (.ok (Path.join path name), { h with files := files }) := by
  obtain ⟨hnul, ⟨files, loc⟩, hopened⟩ := hopen
  obtain ⟨⟨e, hfind⟩, hdiffers, hthere⟩ := differsAt_of_openForWriting hopened
  obtain ⟨rfl, hfits⟩ := hd.of_find_join hname hlink hfind
  have hwhole : ({ h with files := files } : Host).expandPath (Path.join path name) true =
      .ok (Path.join path name) :=
    Host.expandPath_join (hd.of_keepsDirectories fun x hx => hdiffers.keeps x _ hx trivial) hroot
      hname hdollar hdollar' hnul (hfits.of_join hname)
      fun target hlink' => hlink target (hdiffers.keptFrom _ _ hlink' trivial)
  exact ⟨hfits, files, hthere, outcome_createFile_of_opened hnul hopened hwhole⟩

/-- A file that was made could be opened. -/
theorem canOpen_of_createFile {whole : String} {directory : String}
    (hout : outcome (createFile directory name) h = (.ok whole, h')) : CanOpen h directory name := by
  have hnul : hasNul (Path.join directory name) = false := by
    rw [Bool.eq_false_iff]
    intro hnul
    simp only [createFile, hnul, ↓reduceIte, outcome_bind, outcome_throw] at hout
    cases congrArg Prod.fst hout
  obtain ⟨fault, -, ho⟩ | ⟨files, loc, hopened, -⟩ := outcome_createFile directory name h
  · cases congrArg Prod.fst (hout.symm.trans ho)
  · exact ⟨hnul, _, hopened⟩

/-- A file that cannot be opened is refused, and all stays as it is. -/
theorem createFile_of_not_canOpen {directory : String}
    (hnul : hasNul (Path.join directory name) = false) (hopen : ¬ CanOpen h directory name) :
    ∃ cause, outcome (createFile directory name) h = (.error (.failure (.workspace cause)), h) := by
  rcases hopened : h.files.openForWriting h.here false (Path.join directory name) with e | opened
  · refine ⟨.file (Path.join directory name) (.on e (Path.join directory name)), ?_⟩
    simp only [createFile, hnul, Bool.false_eq_true, ↓reduceIte, outcome_bind, outcome_get, hopened,
      outcome_fail]
  · exact (hopen ⟨hnul, opened, hopened⟩).elim

/-- A workspace that spells out where it is, with no link in it and no variable in its path. -/
structure StandsAt (h : Host) (path : String) (W : Location) : Prop where
  direct : h.files.IsDirect path W
  nonroot : W ≠ []
  noVariable : '$' ∉ path.toList
  noLinks : ∀ name target, h.files.get? (W ++ [name]) ≠ some (.link target)

theorem StandsAt.of_keepsEntries (hs : StandsAt h path W) (hk : KeepsEntries h.files h'.files) :
    StandsAt h' path W where
  direct := hs.direct.of_keepsDirectories hk.directories
  nonroot := hs.nonroot
  noVariable := hs.noVariable
  noLinks name target hlink := hs.noLinks name target (hk.links _ _ hlink)

/-- A workspace that was made stands where its path says. -/
theorem IsMade.standsAt {W' : Location} (hm : IsMade h path W' h') (htree : h.files.IsTree)
    (hd : h'.files.IsDirect path W) (hdollar : '$' ∉ path.toList) : StandsAt h' path W := by
  obtain rfl : W' = W := hd.location_of_find hm.leads
  exact ⟨hd, ne_root hm.missing nofun, hdollar,
    fun name target hlink => nomatch (hm.empty htree name).symm.trans hlink⟩

theorem StandsAt.createFile (hs : StandsAt h path W) (hname : IsPlain name)
    (hdollar : '$' ∉ name.toList) (hopen : CanOpen h path name) :
    Fits (Path.join path name) (W ++ [name]) ∧ ∃ files, files.get? (W ++ [name]) ≠ none ∧
      outcome (createFile path name) h = (.ok (Path.join path name), { h with files := files }) :=
  createFile_of_canOpen hs.direct hs.nonroot hs.noVariable hname hdollar (hs.noLinks name) hopen

/-- A file that was made is there as long as nothing is taken away. -/
theorem StandsAt.pathExists {h₁ : Host} {answer : Except Fault String} (hs : StandsAt h path W)
    (hname : IsPlain name) (hdollar : '$' ∉ name.toList) (hopen : CanOpen h path name)
    (hout : (Step.createFile path name).outcome runner h = (answer, h₁))
    (hs' : StandsAt h' path W) (hk : KeepsEntries h₁.files h'.files) :
    h'.pathExists (Path.join path name) = true := by
  obtain ⟨hfits, files, hthere, ho⟩ := hs.createFile hname hdollar hopen
  obtain ⟨-, rfl⟩ := Prod.mk.inj (hout.symm.trans ho)
  exact hs'.direct.pathExists_join hname hfits hopen.1 (hk.there _ hthere) (hs'.noLinks name)

end Workspace

end BitcodeWrapper
