import BitcodeWrapper.Proofs.Host.Growth
import BitcodeWrapper.Proofs.Host.RealPath
import Mathlib.Data.Finset.Card

/-! Machines with the same directories and links. Paths lead to the same places on them and are made
absolute in the same way, whatever the files hold. -/
namespace BitcodeWrapper

namespace Files
variable {fs fs' : Files} {trail : Trail} {x loc here : Location} {names : List String}
  {depth : Nat} {path : String}

theorem lookup_cons_ne_none {place : Option Location} {y : Location} (h : trail.lookup x ≠ none) :
    ((y, place) :: trail : Trail).lookup x ≠ none := by
  rw [List.lookup_cons]
  split
  · exact nofun
  · exact h

/-- A link that was met stays met. -/
theorem lookup_follow_ne_none (h : trail.lookup x ≠ none) :
    (fs.follow depth trail loc names).2.lookup x ≠ none := by
  fun_induction follow fs depth trail loc names with
  | case1 | case5 | case6 => exact h
  | case2 _ _ _ _ _ _ ih | case3 _ _ _ _ _ ih => exact ih h
  | case4 depth trail loc name rest hblank hup next target hlink known hmet ih => exact ih h
  | case7 trail loc name rest hblank hup next tail target hlink hfree shallower stuck trail' hinner ih =>
    rw [hinner] at ih
    exact ih (lookup_cons_ne_none h)
  | case8 trail loc name rest hblank hup next target hlink hfree shallower known trail' hinner ih ih' =>
    rw [hinner] at ih
    exact ih' (lookup_cons_ne_none (ih (lookup_cons_ne_none h)))
  | case9 depth trail loc name rest hblank hup next hlink ih => exact ih h

/-- The links not met so far. -/
def unmet (links : Finset Location) (trail : Trail) : Finset Location :=
  links.filter fun x => trail.lookup x = none

theorem unmet_subset {links : Finset Location} {trail' : Trail}
    (h : ∀ x, trail.lookup x ≠ none → trail'.lookup x ≠ none) :
    unmet links trail' ⊆ unmet links trail := by
  intro x hx
  obtain ⟨hlink, hfree⟩ := Finset.mem_filter.mp hx
  exact Finset.mem_filter.mpr ⟨hlink, not_not.mp fun hmet => h x hmet hfree⟩

theorem card_unmet_cons_lt {links : Finset Location} (hx : x ∈ links)
    (hfree : trail.lookup x = none) (place : Option Location) :
    (unmet links ((x, place) :: trail)).card < (unmet links trail).card := by
  refine Finset.card_lt_card (Finset.ssubset_iff_subset_ne.mpr
    ⟨unmet_subset fun _ => lookup_cons_ne_none, fun heq => ?_⟩)
  have hmem : x ∈ unmet links trail := Finset.mem_filter.mpr ⟨hx, hfree⟩
  rw [← heq] at hmem
  have hnone := (Finset.mem_filter.mp hmem).2
  rw [List.lookup_cons, beq_self_eq_true] at hnone
  exact nomatch hnone

/-- The depth makes no difference as long as it is enough for all links not met so far. -/
theorem follow_eq_of_depth {links : Finset Location}
    (hsame : ∀ x target, fs.get? x = some (.link target) ↔ fs'.get? x = some (.link target))
    (hall : ∀ x target, fs.get? x = some (.link target) → x ∈ links)
    (hdepth : (unmet links trail).card ≤ depth) :
    ∀ depth', (unmet links trail).card ≤ depth' →
      fs.follow depth trail loc names = fs'.follow depth' trail loc names := by
  fun_induction follow fs depth trail loc names with
  | case1 => exact fun _ _ => follow_nil.symm
  | case2 depth trail loc name rest hblank ih =>
    intro depth' hdepth'
    rw [ih hdepth depth' hdepth', follow_blank (by simpa using hblank)]
  | case3 depth trail loc rest hblank ih =>
    intro depth' hdepth'
    rw [ih hdepth depth' hdepth', follow_up]
  | case4 depth trail loc name rest hblank hup next target hlink known hmet ih =>
    intro depth' hdepth'
    rw [ih hdepth depth' hdepth', follow_link (by simpa using hblank) hup ((hsame _ _).mp hlink), hmet]
  | case5 depth trail loc name rest hblank hup next tail target hlink hmet =>
    intro depth' _
    rw [follow_link (by simpa using hblank) hup ((hsame _ _).mp hlink), hmet]
  | case6 trail loc name rest hblank hup next tail target hlink hfree =>
    have hless := card_unmet_cons_lt (hall _ _ hlink) hfree none
    omega
  | case7 trail loc name rest hblank hup next tail target hlink hfree shallower stuck trail' hinner ih =>
    intro depth' hdepth'
    have hless := card_unmet_cons_lt (hall _ _ hlink) hfree none
    obtain ⟨shallower', rfl⟩ : ∃ n, depth' = n + 1 := Nat.exists_eq_add_one.mpr (by omega)
    have hinner' : fs'.follow shallower' ((loc ++ [name], none) :: trail)
        (if Path.isAbsolute target then [] else loc) (Path.names target) = (.error stuck, trail') :=
      (ih (by omega) shallower' (by omega)).symm.trans hinner
    rw [follow_link (by simpa using hblank) hup ((hsame _ _).mp hlink), hfree]
    simp only [hinner']
    rfl
  | case8 trail loc name rest hblank hup next target hlink hfree shallower known trail' hinner ih ih' =>
    intro depth' hdepth'
    have hless := card_unmet_cons_lt (hall _ _ hlink) hfree none
    obtain ⟨shallower', rfl⟩ : ∃ n, depth' = n + 1 := Nat.exists_eq_add_one.mpr (by omega)
    have hgrown : (unmet links ((next, some known) :: trail')).card ≤ (unmet links trail).card := by
      refine Finset.card_le_card (unmet_subset fun x hx => lookup_cons_ne_none ?_)
      have hmet : (fs.follow shallower ((next, none) :: trail)
          (if Path.isAbsolute target then [] else loc) (Path.names target)).2.lookup x ≠ none :=
        lookup_follow_ne_none (lookup_cons_ne_none hx)
      exact (congrArg (fun out => out.2.lookup x) hinner).symm.trans_ne hmet
    have hinner' : fs'.follow shallower' ((loc ++ [name], none) :: trail)
        (if Path.isAbsolute target then [] else loc) (Path.names target) = (.ok known, trail') :=
      (ih (by omega) shallower' (by omega)).symm.trans hinner
    rw [follow_link (by simpa using hblank) hup ((hsame _ _).mp hlink), hfree]
    simp only [hinner']
    exact ih' (by omega) (shallower' + 1) (by omega)
  | case9 depth trail loc name rest hblank hup next hlink ih =>
    intro depth' hdepth'
    rw [ih hdepth depth' hdepth', follow_past (by simpa using hblank) hup]
    exact fun target hentry => hlink target ((hsame _ _).mpr hentry)

/-- The locations of links. -/
def links (fs : Files) : Finset Location :=
  (fs.entries.map (·.1)).toFinset.filter fun x => (fs.get? x).any isLink

theorem mem_links {target : String} (h : fs.get? x = some (.link target)) : x ∈ fs.links := by
  have hmem := get?_mem (ne_root h nofun) h
  refine Finset.mem_filter.mpr ⟨List.mem_toFinset.mpr (List.mem_map_of_mem hmem), ?_⟩
  rw [h]
  rfl

theorem get?_of_mem_links (h : x ∈ fs.links) : ∃ target, fs.get? x = some (.link target) := by
  have hlink := (Finset.mem_filter.mp h).2
  rcases hx : fs.get? x with _ | e <;> rw [hx] at hlink
  · exact nomatch hlink
  · cases e with
    | link target => exact ⟨target, rfl⟩
    | _ => exact nomatch hlink

/-- There are as many entries as links at least, also among other files with the same links. -/
theorem card_links_le
    (hsame : ∀ x target, fs.get? x = some (.link target) → fs'.get? x = some (.link target)) :
    (unmet fs.links []).card ≤ fs'.entries.length := by
  have hsub : fs.links ⊆ (fs'.entries.map (·.1)).toFinset := by
    intro x hx
    obtain ⟨target, hlink⟩ := get?_of_mem_links hx
    have hlink' := hsame x target hlink
    exact List.mem_toFinset.mpr (List.mem_map_of_mem (get?_mem (ne_root hlink' nofun) hlink'))
  calc (unmet fs.links []).card ≤ fs.links.card := Finset.card_filter_le _ _
    _ ≤ ((fs'.entries.map (·.1)).toFinset).card := Finset.card_le_card hsub
    _ ≤ (fs'.entries.map (·.1)).length := List.toFinset_card_le _
    _ = fs'.entries.length := List.length_map _

/-- Only links matter to the absolute path. -/
theorem realPath_eq_of_sameLinks
    (hsame : ∀ x target, fs.get? x = some (.link target) ↔ fs'.get? x = some (.link target)) :
    fs.realPath here path = fs'.realPath here path := by
  have hfollow : fs.follow fs.entries.length [] (if Path.isAbsolute path then [] else here)
        (Path.names path) =
      fs'.follow fs'.entries.length [] (if Path.isAbsolute path then [] else here)
        (Path.names path) :=
    follow_eq_of_depth hsame (fun _ _ => mem_links) (card_links_le fun _ _ => id) _
      (card_links_le fun x target => (hsame x target).mp)
  simp only [realPath, hfollow]

/-- Paths to directories are the same as long as the directories and links are. -/
theorem isDirectory_eq_of_samePassages (hkeeps : KeepsPassages fs fs')
    (hkeptFrom : KeepsPassages fs' fs) : fs.isDirectory here path = fs'.isDirectory here path := by
  have hfound : ∀ {fs fs' : Files}, KeepsPassages fs fs' → fs.isDirectory here path = true →
      fs'.isDirectory here path = true := by
    intro fs fs' hkeeps h
    obtain ⟨hnul, loc, hfind⟩ := isDirectory_iff.mp h
    exact isDirectory_iff.mpr ⟨hnul, loc, find_of_keepsPassages hkeeps hfind⟩
  exact Bool.eq_iff_iff.mpr ⟨hfound hkeeps, hfound hkeptFrom⟩

end Files

namespace Host
open Files
variable {h h' h'' : Host} {path : String} {W : Location}

/-- The machines look paths up alike: they have the same directories and links, and the same texts for
what paths leave open. -/
structure SameWays (h h' : Host) : Prop where
  here : h'.here = h.here
  environment : h'.environment = h.environment
  accounts : h'.accounts = h.accounts
  account : h'.account = h.account
  keeps : KeepsPassages h.files h'.files
  keptFrom : KeepsPassages h'.files h.files

namespace SameWays

theorem refl (h : Host) : SameWays h h where
  here := rfl
  environment := rfl
  accounts := rfl
  account := rfl
  keeps _ _ hx _ := hx
  keptFrom _ _ hx _ := hx

theorem symm (hw : SameWays h h') : SameWays h' h where
  here := hw.here.symm
  environment := hw.environment.symm
  accounts := hw.accounts.symm
  account := hw.account.symm
  keeps := hw.keptFrom
  keptFrom := hw.keeps

theorem trans (hw : SameWays h h') (hw' : SameWays h' h'') : SameWays h h'' where
  here := hw'.here.trans hw.here
  environment := hw'.environment.trans hw.environment
  accounts := hw'.accounts.trans hw.accounts
  account := hw'.account.trans hw.account
  keeps x e hx he := hw'.keeps x e (hw.keeps x e hx he) he
  keptFrom x e hx he := hw.keptFrom x e (hw'.keptFrom x e hx he) he

theorem of_differsAt {files : Files} {loc : Location} (hd : DiffersAt h.files files loc) :
    SameWays h { h with files := files } where
  here := rfl
  environment := rfl
  accounts := rfl
  account := rfl
  keeps := hd.keeps
  keptFrom := hd.keptFrom

theorem of_accept (h : Host) (r : Log.Record) : SameWays h (h.accept r) where
  here := here_accept h r
  environment := environment_accept h r
  accounts := accounts_accept h r
  account := account_accept h r
  keeps := keepsPassages_of_kept (kept_accept h r)
  keptFrom := keepsPassages_symm_of_kept (kept_accept h r)

theorem of_recordsTo (hr : RecordsTo h h') : SameWays h h' := by
  induction hr with
  | refl => exact .refl h
  | accept earlier r ih => exact ih.trans (.of_accept _ r)

theorem expandPath_eq (hw : SameWays h h') (path : String) (followLinks : Bool) :
    h.expandPath path followLinks = h'.expandPath path followLinks := by
  have htext : h.expandText path = h'.expandText path := by
    rw [expandText, expandText, homes, homes, hw.environment, hw.accounts, hw.account]
  have hreal : ∀ path, h.files.realPath h.here path = h'.files.realPath h'.here path := by
    intro path
    rw [hw.here]
    exact realPath_eq_of_sameLinks fun x target =>
      ⟨fun hx => hw.keeps x _ hx trivial, fun hx => hw.keptFrom x _ hx trivial⟩
  have hdirectory : ∀ path, h.isDirectory path = h'.isDirectory path := by
    intro path
    rw [isDirectory, isDirectory, hw.here]
    exact isDirectory_eq_of_samePassages hw.keeps hw.keptFrom
  simp only [expandPath, htext, hreal, hdirectory, hw.here]

end SameWays

end Host

end BitcodeWrapper
