import BitcodeWrapper.Proofs.Workspace.Alike

/-! Machines on which a workspace can be made, and files in it as long as nobody makes directories or
links there. -/
namespace BitcodeWrapper.Workspace
open BitcodeWrapper.Action Files Job

variable {h h' : Host} {source path name : String} {T W : Location}

/-- The directory for workspaces spells out where it is, the next workspace is free, and the paths in it
are of a kind and length that can be opened. -/
structure IsReady (h : Host) (source : String) (T : Location) : Prop where
  tree : h.files.IsTree
  temporary : h.files.IsDirect h.temporary T
  free : h.files.get? (T ++ [nameOf (h.attempts + 1)]) = none
  noVariable : '$' ∉ (pathOf h (h.attempts + 1)).toList ∧ '$' ∉ source.toList
  noNul : hasNul (pathOf h (h.attempts + 1)) = false ∧ hasNul source = false
  noSlash : Path.slash ∉ source.toList
  notDots : ∃ x ∈ source.toList, x ≠ '.'
  fits : Fits (Path.join (pathOf h (h.attempts + 1)) (source ++ ".opt.bc"))
    (T ++ [nameOf (h.attempts + 1)] ++ [source ++ ".opt.bc"])

section fresh
variable (fs : Files) (environment : Bindings)

theorem nameOf_fresh : nameOf ((Host.fresh fs environment).attempts + 1) = "conjunct00000001" := by
  change nameOf 1 = _
  decide +kernel

theorem pathOf_fresh : pathOf (.fresh fs environment) ((Host.fresh fs environment).attempts + 1) =
    "/tmp/conjunct00000001" := by
  change Path.join "/tmp" (nameOf 1) = _
  decide +kernel

variable {fs}

/-- A machine on which nothing happened yet is ready if it has a directory for workspaces. -/
theorem isReady_fresh (htree : ∀ p ∈ fs.entries, fs.get? p.1.dropLast = some .directory)
    (hmade : fs.get? ["tmp"] = some .directory)
    (hfree : fs.get? ["tmp", "conjunct00000001"] = none) :
    IsReady (.fresh fs environment) "a.c" ["tmp"] := by
  refine ⟨isTree_of_entries htree, ⟨?_, fun name hname => ?_, fun x hx => ?_⟩, ?_, ?_, ?_, by decide,
    ⟨'a', by decide, by decide⟩, ?_⟩
  · change "/tmp" = _
    decide +kernel
  · obtain rfl := List.mem_singleton.mp hname
    exact ⟨by decide, by decide, by decide, by decide⟩
  · obtain rfl | ⟨y, rfl, hy⟩ := List.prefix_cons_iff.mp hx
    · rfl
    · rwa [List.prefix_nil.mp hy]
  · rwa [nameOf_fresh]
  · rw [pathOf_fresh]
    decide +kernel
  · rw [pathOf_fresh]
    decide +kernel
  · rw [pathOf_fresh, nameOf_fresh]
    exact ⟨by decide +kernel, by decide +kernel⟩

end fresh

theorem IsReady.of_recordsTo (hready : IsReady h source T) (hr : Host.RecordsTo h h') :
    IsReady h' source T := by
  obtain ⟨-, htemporary, hattempts, -⟩ := hr.machine_eq
  have hpath : pathOf h' (h'.attempts + 1) = pathOf h (h.attempts + 1) := by
    rw [pathOf, pathOf, htemporary, hattempts]
  constructor
  · exact hready.tree.of_kept hr.kept
  · rw [htemporary]
    exact hready.temporary.of_keepsDirectories fun x hx => (hx ▸ hr.kept x).eq_passage trivial
  · rw [hattempts]
    exact (hready.free ▸ hr.kept _).eq_none
  · rw [hpath]
    exact hready.noVariable
  · rw [hpath]
    exact hready.noNul
  · exact hready.noSlash
  · exact hready.notDots
  · rw [hpath, hattempts]
    exact hready.fits

/-- The workspace that a machine is ready for is made, and stands empty where its path says. -/
theorem IsReady.make (hready : IsReady h source T) :
    ∃ h', outcome Workspace.make h = (.ok (pathOf h (h.attempts + 1)), h') ∧
      StandsAt h' (pathOf h (h.attempts + 1)) (T ++ [nameOf (h.attempts + 1)]) ∧
      ∀ name, h'.files.get? (T ++ [nameOf (h.attempts + 1)] ++ [name]) = none := by
  have hname := isPlain_nameOf (h.attempts + 1)
  have hsource : IsPlain (source ++ ".opt.bc") :=
    Pipeline.isPlain_append hready.noSlash (by decide) (by decide)
  have hfree : h.files.find h.here false (pathOf h (h.attempts + 1)) =
      .ok ⟨T ++ [nameOf (h.attempts + 1)], none⟩ := by
    have hlink : ∀ target,
        h.files.get? (T ++ [nameOf (h.attempts + 1)]) ≠ some (.link target) := by
      rw [hready.free]
      exact nofun
    rw [pathOf, hready.temporary.find_join hname (hready.fits.of_join hsource) hlink, hready.free]
  refine ⟨_, outcome_make_of_free hfree, ?_⟩
  have hmade := isMade_put (r := h.ownRecord .debug
    ("Created temp dir " ++ pathOf h (h.attempts + 1))) hfree
  refine ⟨hmade.standsAt hready.tree ⟨hready.temporary.join_eq_text hname,
    hready.temporary.plain_concat hname, fun x hx => ?_⟩ hready.noVariable.1, hmade.empty hready.tree⟩
  rcases List.prefix_concat_iff.mp hx with rfl | hx
  · exact hmade.leads.get?
  · have hother : x ≠ T ++ [nameOf (h.attempts + 1)] := by
      rintro rfl
      have hlength := hx.length_le
      rw [List.length_append, List.length_singleton] at hlength
      omega
    exact (hready.temporary.directories x hx ▸ hmade.elsewhere x hother).eq_passage trivial

/-- A file can be opened in a workspace where no directory has its name. -/
theorem StandsAt.canOpen (hs : StandsAt h path W) (hname : IsPlain name)
    (hfits : Fits (Path.join path name) (W ++ [name])) (hpath : hasNul path = false)
    (hnul : hasNul name = false) (hfree : h.files.get? (W ++ [name]) ≠ some .directory) :
    CanOpen h path name := by
  refine ⟨by rw [hs.direct.hasNul_join hs.nonroot hname, hpath, hnul]; rfl,
    exists_openForWriting_iff.mpr ⟨?_, _, hs.direct.find_join hname hfits (hs.noLinks name), hfree⟩⟩
  obtain ⟨c, hc⟩ := Option.ne_none_iff_exists'.mp
    (mt List.getLast?_eq_none_iff.mp (Path.toList_ne_nil hname.ne_empty))
  rw [hs.direct.join_eq_append hs.nonroot hname, String.toList_append, List.getLast?_append, hc]
  rintro ⟨⟩
  exact hname.noSlash (List.mem_of_getLast? hc)

/-- A shorter name fits where a longer one does. -/
theorem StandsAt.fits_of_le {longer : String} (hs : StandsAt h path W) (hname : IsPlain name)
    (hlonger : IsPlain longer) (hle : name.utf8ByteSize ≤ longer.utf8ByteSize)
    (hfits : Fits (Path.join path longer) (W ++ [longer])) :
    Fits (Path.join path name) (W ++ [name]) where
  short := by
    have hshort := hfits.short
    rw [hs.direct.join_eq_append hs.nonroot hlonger, String.utf8ByteSize_append] at hshort
    rw [hs.direct.join_eq_append hs.nonroot hname, String.utf8ByteSize_append]
    omega
  steps n hn := by
    rcases List.mem_append.mp hn with hn | hn
    · exact hfits.steps n (List.mem_append_left _ hn)
    · obtain rfl := List.mem_singleton.mp hn
      have hshort := (hfits.steps longer (List.mem_append_right _ (List.mem_singleton_self _))).short
      exact ⟨hname.notBlank, hname.ne_dots, Nat.le_trans hle hshort⟩

/-- The two files that are called after the source can be opened in its workspace. -/
theorem IsReady.canOpen (hready : IsReady h source T)
    (hs : StandsAt h' (pathOf h (h.attempts + 1)) (T ++ [nameOf (h.attempts + 1)]))
    (hfree : ∀ name, h'.files.get? (T ++ [nameOf (h.attempts + 1)] ++ [name]) ≠ some .directory)
    (hname : name = source ++ ".bc" ∨ name = source ++ ".opt.bc") :
    '$' ∉ name.toList ∧ CanOpen h' (pathOf h (h.attempts + 1)) name := by
  have hlonger : IsPlain (source ++ ".opt.bc") :=
    Pipeline.isPlain_append hready.noSlash (by decide) (by decide)
  have hopens : ∀ extension : String, '$' ∉ extension.toList → hasNul extension = false →
      IsPlain (source ++ extension) → extension.utf8ByteSize ≤ ".opt.bc".utf8ByteSize →
      '$' ∉ (source ++ extension).toList ∧
        CanOpen h' (pathOf h (h.attempts + 1)) (source ++ extension) := by
    intro extension hdollar hnul hplain hle
    refine ⟨Pipeline.notMem_append hready.noVariable.2 hdollar,
      hs.canOpen hplain (hs.fits_of_le hplain hlonger ?_ hready.fits) hready.noNul.1 ?_ (hfree _)⟩
    · rw [String.utf8ByteSize_append, String.utf8ByteSize_append]
      omega
    · rw [hasNul_append, hready.noNul.2, hnul]
      rfl
  rcases hname with rfl | rfl
  · exact hopens ".bc" (by decide) (by decide)
      (Pipeline.isPlain_append hready.noSlash (by decide) (by decide)) (by decide)
  · exact hopens ".opt.bc" (by decide) (by decide) hlonger (Nat.le_refl _)

theorem StandsAt.of_sameWays (hs : StandsAt h path W) (hw : h.SameWays h') : StandsAt h' path W where
  direct := hs.direct.of_keepsDirectories fun x hx => hw.keeps x _ hx trivial
  nonroot := hs.nonroot
  noVariable := hs.noVariable
  noLinks name target hlink := hs.noLinks name target (hw.keptFrom _ _ hlink trivial)

end BitcodeWrapper.Workspace
