import BitcodeWrapper.Host.Resolve
import BitcodeWrapper.Proofs.Host.Walk
import BitcodeWrapper.Proofs.Path.Normal

/-! Paths made absolute. Among files without links the names on the way are all there is to follow; with
them the path that is left begins at the root all the same. -/
namespace BitcodeWrapper

namespace Files

def HasNoLinks (fs : Files) : Prop := ∀ x target, fs.get? x ≠ some (.link target)

/-- The names that lead somewhere. -/
def proper (names : List String) : List String := names.filter fun name => name ≠ "" && name ≠ "."

variable {fs : Files} {depth : Nat} {trail : Trail} {loc : Location} {name target : String}
  {rest : List String}

theorem follow_nil : fs.follow depth trail loc [] = (.ok loc, trail) := by
  rw [follow]

theorem follow_blank (h : name = "" ∨ name = ".") :
    fs.follow depth trail loc (name :: rest) = fs.follow depth trail loc rest := by
  rw [follow, if_pos (by simpa using h)]

theorem follow_up :
    fs.follow depth trail loc (".." :: rest) = fs.follow depth trail loc.dropLast rest := by
  rw [follow, if_neg (by decide), if_pos rfl]

theorem follow_past (hblank : ¬ (name = "" ∨ name = ".")) (hup : name ≠ "..")
    (hlink : ∀ target, fs.get? (loc ++ [name]) ≠ some (.link target)) :
    fs.follow depth trail loc (name :: rest) = fs.follow depth trail (loc ++ [name]) rest := by
  rw [follow, if_neg (by simpa using hblank), if_neg hup]
  dsimp only
  split
  · rename_i target hentry
    exact (hlink target hentry).elim
  · rfl

/-- What comes of a link: a place that is known by now, or the text of the path from there on. -/
theorem follow_link (hblank : ¬ (name = "" ∨ name = ".")) (hup : name ≠ "..")
    (hlink : fs.get? (loc ++ [name]) = some (.link target)) :
    fs.follow depth trail loc (name :: rest) =
      match trail.lookup (loc ++ [name]), depth with
      | some (some known), depth => fs.follow depth trail known rest
      | some none, _ | none, 0 =>
        (.error (Path.join (Location.text (loc ++ [name])) (String.intercalate "/" rest)), trail)
      | none, shallower + 1 =>
        match fs.follow shallower ((loc ++ [name], none) :: trail)
            (if Path.isAbsolute target then [] else loc) (Path.names target) with
        | (.error stuck, trail) =>
          (.error (Path.join stuck (String.intercalate "/" rest)), trail)
        | (.ok known, trail) =>
          fs.follow (shallower + 1) ((loc ++ [name], some known) :: trail) known rest := by
  rw [follow, if_neg (by simpa using hblank), if_neg hup]
  simp only [hlink]
  rcases trail.lookup (loc ++ [name]) with _ | _ | known
  · cases depth <;> rfl
  · rfl
  · rfl

def isLink : Entry → Bool
  | .link _ => true
  | _ => false

theorem hasNoLinks_of_entries (h : ∀ p ∈ fs.entries, isLink p.2 = false) : fs.HasNoLinks := by
  intro x target hx
  by_cases hroot : x = []
  · rw [hroot, get?_root] at hx
    exact nomatch hx
  · exact nomatch h _ (get?_mem hroot hx)

/-- Names without a link on their way are all there is to follow. -/
theorem follow_of_noLinks {names : List String} (hup : ".." ∉ names) (depth : Nat) (trail : Trail)
    (loc : Location)
    (hlinks : ∀ x, x <+: proper names → x ≠ [] → ∀ target, fs.get? (loc ++ x) ≠ some (.link target)) :
    fs.follow depth trail loc names = (.ok (loc ++ proper names), trail) := by
  induction names generalizing loc with
  | nil => rw [follow_nil, proper, List.filter_nil, List.append_nil]
  | cons name names ih =>
    obtain ⟨hname, hup⟩ := not_or.mp (mt List.mem_cons.mpr hup)
    by_cases hblank : name = "" ∨ name = "."
    · have hproper : proper (name :: names) = proper names :=
        List.filter_cons_of_neg (by rcases hblank with rfl | rfl <;> simp)
      rw [hproper] at hlinks ⊢
      rw [follow_blank hblank, ih hup loc hlinks]
    · have hproper : proper (name :: names) = name :: proper names :=
        List.filter_cons_of_pos (by simpa using hblank)
      rw [hproper] at hlinks ⊢
      have hlink := hlinks [name] (List.cons_prefix_cons.mpr ⟨rfl, List.nil_prefix⟩) nofun
      rw [follow_past hblank (Ne.symm hname) hlink, ih hup (loc ++ [name]), List.append_assoc,
        List.singleton_append]
      intro x hx _ target
      rw [List.append_assoc, List.singleton_append]
      exact hlinks (name :: x) (List.cons_prefix_cons.mpr ⟨rfl, hx⟩) nofun target

theorem follow_of_hasNoLinks (hlinks : fs.HasNoLinks) {names : List String} (hup : ".." ∉ names)
    (depth : Nat) (trail : Trail) (loc : Location) :
    fs.follow depth trail loc names = (.ok (loc ++ proper names), trail) :=
  follow_of_noLinks hup depth trail loc fun x _ _ target => hlinks (loc ++ x) target

/-- Among files without links an absolute path without `..` only loses its empty names and dots. -/
theorem realPath_of_hasNoLinks (hlinks : fs.HasNoLinks) {here : Location} {path : String}
    (habsolute : Path.isAbsolute path = true) (hup : ".." ∉ Path.names path) :
    fs.realPath here path = Location.text (proper (Path.names path)) := by
  simp only [realPath, habsolute, ↓reduceIte, follow_of_hasNoLinks hlinks hup, List.nil_append]

/-- Where links cannot be followed, the path up to there is spelled out. -/
theorem isAbsolute_of_follow_error {names : List String} :
    ∀ stuck, (fs.follow depth trail loc names).1 = .error stuck → Path.isAbsolute stuck = true := by
  fun_induction follow fs depth trail loc names with
  | case1 => exact fun _ h => nomatch h
  | case5 | case6 =>
    exact fun _ h => Except.error.inj h ▸ Path.isAbsolute_join_left (Path.isAbsolute_text _) _
  | case7 trail loc name rest hblank hup next tail target hlink hfree shallower stuck trail' hinner ih =>
    intro whole h
    rw [← Except.error.inj h]
    exact Path.isAbsolute_join_left (ih stuck (congrArg Prod.fst hinner)) tail
  | case2 | case3 | case4 | case8 | case9 => assumption

theorem isAbsolute_realPath (fs : Files) (here : Location) (path : String) :
    Path.isAbsolute (fs.realPath here path) = true := by
  rw [realPath]
  split
  · exact Path.isAbsolute_text _
  · exact (Path.spells_normal (isAbsolute_of_follow_error _ ‹_›)).isAbsolute

end Files

theorem Host.isAbsolute_of_expandPath {h : Host} {path whole : String}
    (hexpand : h.expandPath path true = .ok whole) : Path.isAbsolute whole = true := by
  simp only [expandPath, ↓reduceIte] at hexpand
  split at hexpand
  · exact nomatch hexpand
  · split at hexpand
    · obtain rfl := Except.ok.inj hexpand
      exact Files.isAbsolute_realPath _ _ _
    · exact nomatch hexpand

end BitcodeWrapper
