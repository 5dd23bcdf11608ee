import BitcodeWrapper.Proofs.Path.Text
import Mathlib.Data.List.Basic

/-! The normal form of an absolute path. Segments are laid on a stack; from the root on only those stay
there that name something, and a path which is written with such segments stays as it is. -/
namespace BitcodeWrapper.Path

/-- A segment that names something, without regard to what is there. -/
structure IsProper (s : List Char) : Prop where
  ne_nil : s ≠ []
  ne_dot : s ≠ ['.']
  ne_dots : s ≠ ['.', '.']
  noSlash : slash ∉ s

/-- The path is written with one or two slashes and then the segments. -/
structure Spells (path : String) (slashes : Nat) (ss : List (List Char)) : Prop where
  root : slashes = 1 ∨ slashes = 2
  text : path.toList = List.replicate slashes slash ++ joined ss
  proper : ∀ s ∈ ss, IsProper s

variable {path : String} {slashes : Nat} {isRooted : Bool} {s : List Char} {ss settled : List (List Char)}

theorem isProper_iff : IsProper s ↔ s ≠ [] ∧ s ≠ ['.'] ∧ s ≠ ['.', '.'] ∧ slash ∉ s := by
  constructor
  · rintro ⟨ne_nil, ne_dot, ne_dots, noSlash⟩
    exact ⟨ne_nil, ne_dot, ne_dots, noSlash⟩
  · rintro ⟨ne_nil, ne_dot, ne_dots, noSlash⟩
    exact ⟨ne_nil, ne_dot, ne_dots, noSlash⟩

theorem isNormal_iff : IsNormal path ↔ ∃ slashes ss, Spells path slashes ss := by
  simp only [IsNormal, ← isProper_iff]
  constructor
  · rintro ⟨slashes, ss, root, text, proper⟩
    exact ⟨slashes, ss, root, text, proper⟩
  · rintro ⟨slashes, ss, root, text, proper⟩
    exact ⟨slashes, ss, root, text, proper⟩

theorem segments_replicate_append (n : Nat) (cs : List Char) :
    segments (List.replicate n slash ++ cs) = List.replicate n [] ++ segments cs := by
  induction n with
  | zero => rfl
  | succ n ih =>
    rw [List.replicate_succ, List.cons_append, segments, cutAt, if_pos rfl]
    exact congrArg _ ih

theorem settle_nil : settle '.' isRooted settled [] = settled := if_pos (by decide)

theorem settle_of_isProper (h : IsProper s) : settle '.' isRooted settled s = s :: settled := by
  rw [settle.eq_def, if_neg (by simp [h.ne_nil, h.ne_dot]), if_pos (by simpa using h.ne_dots)]

/-- From the root on, a segment cannot leave anything improper behind. -/
theorem isProper_of_mem_settle (hsettled : ∀ t ∈ settled, IsProper t) (hs : slash ∉ s) :
    ∀ t ∈ settle '.' true settled s, IsProper t := by
  rw [settle.eq_def]
  split
  · exact hsettled
  rename_i hblank
  split
  · rename_i hdots
    obtain ⟨hnil, hdot⟩ := not_or.mp (by simpa using hblank)
    exact List.forall_mem_cons.mpr ⟨⟨hnil, hdot, by simpa using hdots, hs⟩, hsettled⟩
  · cases settled with
    | nil => exact hsettled
    | cons top rest =>
      obtain ⟨htop, hrest⟩ := List.forall_mem_cons.mp hsettled
      dsimp only
      rw [if_neg htop.ne_dots]
      exact hrest

theorem isProper_of_mem_foldl (hss : ∀ s ∈ ss, slash ∉ s) (hsettled : ∀ t ∈ settled, IsProper t) :
    ∀ t ∈ ss.foldl (settle '.' true) settled, IsProper t := by
  induction ss generalizing settled with
  | nil => exact hsettled
  | cons s ss ih =>
    obtain ⟨hs, hss⟩ := List.forall_mem_cons.mp hss
    exact ih hss (isProper_of_mem_settle hsettled hs)

theorem foldl_settle_of_isProper (hss : ∀ s ∈ ss, IsProper s) (settled : List (List Char)) :
    ss.foldl (settle '.' isRooted) settled = ss.reverse ++ settled := by
  induction ss generalizing settled with
  | nil => rfl
  | cons s ss ih =>
    obtain ⟨hs, hss⟩ := List.forall_mem_cons.mp hss
    rw [List.foldl_cons, settle_of_isProper hs, ih hss, List.reverse_cons, List.append_assoc,
      List.singleton_append]

theorem normalSegments_of_isProper (hss : ∀ s ∈ ss, IsProper s) : normalSegments '.' isRooted ss = ss := by
  rw [normalSegments, foldl_settle_of_isProper hss, List.append_nil, List.reverse_reverse]

theorem normalSegments_replicate_append (n : Nat) :
    normalSegments '.' isRooted (List.replicate n [] ++ ss) = normalSegments '.' isRooted ss := by
  induction n with
  | zero => rfl
  | succ n ih =>
    rw [List.replicate_succ, List.cons_append, normalSegments, List.foldl_cons, settle_nil]
    exact ih

theorem head?_joined_ne (hss : ∀ s ∈ ss, IsProper s) : (joined ss).head? ≠ some slash := by
  cases ss with
  | nil => exact nofun
  | cons s ss =>
    obtain ⟨hs, -⟩ := List.forall_mem_cons.mp hss
    obtain ⟨c, cs, rfl⟩ := List.exists_cons_of_ne_nil hs.ne_nil
    have hhead : (joined ((c :: cs) :: ss)).head? = some c := by
      cases ss <;> simp [joined, List.intercalate_cons_cons]
    rw [hhead]
    rintro ⟨⟩
    exact hs.noSlash List.mem_cons_self

/-- An absolute path keeps one slash or two. -/
theorem rootSlashes_of_isAbsolute (h : isAbsolute path = true) :
    rootSlashes path.toList = 1 ∨ rootSlashes path.toList = 2 := by
  obtain ⟨cs, hcs⟩ := toList_of_isAbsolute h
  rw [hcs, rootSlashes.eq_def]
  split
  · exact .inl rfl
  · exact .inr rfl
  · exact .inl rfl
  · rename_i hnone
    exact (hnone cs rfl).elim

theorem rootSlashes_replicate_append {cs : List Char} (hroot : slashes = 1 ∨ slashes = 2)
    (hcs : cs.head? ≠ some slash) : rootSlashes (List.replicate slashes slash ++ cs) = slashes := by
  cases cs with
  | nil => rcases hroot with rfl | rfl <;> rfl
  | cons c cs =>
    have hc : c ≠ '/' := fun h => hcs (congrArg some h)
    rcases hroot with rfl | rfl <;> simp [List.replicate_succ, slash, rootSlashes, hc]

theorem toList_normal (h : isAbsolute path = true) :
    (normal path).toList = List.replicate (rootSlashes path.toList) slash ++
      joined (normalSegments '.' true (segments path.toList)) := by
  have hroot := rootSlashes_of_isAbsolute h
  have hpos : decide (0 < rootSlashes path.toList) = true := decide_eq_true (by omega)
  rw [normal, String.toList_ofList, normalChars, hpos]
  refine if_neg fun hnil => ?_
  have hlength := congrArg List.length hnil
  simp only [List.length_append, List.length_replicate, List.length_nil] at hlength
  omega

theorem spells_normal (h : isAbsolute path = true) :
    Spells (normal path) (rootSlashes path.toList) (normalSegments '.' true (segments path.toList)) where
  root := rootSlashes_of_isAbsolute h
  text := toList_normal h
  proper s hs := isProper_of_mem_foldl (fun _ => notMem_of_mem_cutAt) (List.forall_mem_nil _) s
    (List.mem_reverse.mp hs)

/-- The directory of a name at the root is the root. -/
theorem toList_directory_of_root {n : Nat} (hpath : path.toList = List.replicate (n + 1) slash ++ s)
    (hs : slash ∉ s) : (directory path).toList = List.replicate (n + 1) slash := by
  have hhead : headChars path.toList = List.replicate (n + 1) slash := by
    rw [hpath, List.replicate_succ', List.append_assoc, List.singleton_append, headChars_append _ hs]
  rw [directory, String.toList_ofList, directoryChars, hhead]
  exact if_pos (by simp)

namespace Spells

theorem isAbsolute (h : Spells path slashes ss) : isAbsolute path = true := by
  rw [isAbsolute_iff, h.text]
  rcases h.root with rfl | rfl <;> rfl

/-- A path in normal form is its own normal form. -/
theorem normal_eq (h : Spells path slashes ss) : normal path = path := by
  apply String.toList_injective
  rw [toList_normal h.isAbsolute, h.text,
    rootSlashes_replicate_append h.root (head?_joined_ne h.proper), segments_replicate_append,
    normalSegments_replicate_append]
  by_cases hss : ss = []
  · subst hss
    rfl
  · rw [segments_joined hss fun t ht => (h.proper t ht).noSlash, normalSegments_of_isProper h.proper]

theorem exists_slashes_eq (h : Spells path slashes ss) : ∃ n, slashes = n + 1 :=
  Nat.exists_eq_add_one.mpr (by have := h.root; omega)

theorem directory_root (h : Spells path slashes []) : Path.directory path = path := by
  apply String.toList_injective
  obtain ⟨n, rfl⟩ := h.exists_slashes_eq
  rw [toList_directory_of_root h.text List.not_mem_nil, h.text]
  exact (List.append_nil _).symm

theorem toList_directory_concat {front : List (List Char)} (h : Spells path slashes (front ++ [s])) :
    (Path.directory path).toList = List.replicate slashes slash ++ joined front := by
  obtain ⟨hproper, hs⟩ := List.forall_mem_append.mp h.proper
  have hslash : slash ∉ s := (hs s (List.mem_singleton_self s)).noSlash
  obtain ⟨n, rfl⟩ := h.exists_slashes_eq
  by_cases hfront : front = []
  · subst hfront
    rw [toList_directory_of_root (by simpa [joined] using h.text) hslash]
    exact (List.append_nil _).symm
  · obtain ⟨parent, hparent⟩ :
        ∃ parent : String, parent.toList = List.replicate (n + 1) slash ++ joined front :=
      ⟨_, String.toList_ofList⟩
    have hne : parent ≠ "" := fun hempty => by simp [hempty] at hparent
    have hlast : parent.toList.getLast? ≠ some slash := by
      rw [hparent]
      exact getLast?_joined_ne hfront (fun t ht => (hproper t ht).ne_nil)
        (fun t ht => (hproper t ht).noSlash) _
    have hname : slash ∉ (String.ofList s).toList := by rwa [String.toList_ofList]
    have hjoin : path = join parent (String.ofList s) := by
      apply String.toList_injective
      rw [toList_join_of_ne_slash hne hname hlast, hparent, h.text, joined_concat hfront,
        String.toList_ofList, List.append_assoc]
    rw [hjoin, directory_join hne hlast hname, hparent]

/-- The directory is written without the last segment. -/
theorem directory (h : Spells path slashes ss) : Spells (Path.directory path) slashes ss.dropLast where
  root := h.root
  proper s hs := h.proper s ((List.dropLast_sublist ss).subset hs)
  text := by
    obtain rfl | ⟨front, s, rfl⟩ := List.eq_nil_or_concat' ss
    · rw [h.directory_root, h.text]
      rfl
    · rw [h.toList_directory_concat, List.dropLast_concat]

end Spells

end BitcodeWrapper.Path
