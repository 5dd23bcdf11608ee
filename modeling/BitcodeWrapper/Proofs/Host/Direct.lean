import BitcodeWrapper.Proofs.Host.Growth
import BitcodeWrapper.Proofs.Host.RealPath
import BitcodeWrapper.Proofs.Path.Text

/-! Directories whose path spells out where they are. A plain name that is joined to such a path is
opened, found and made absolute as it is written. -/
namespace BitcodeWrapper

namespace Files
variable {fs fs' : Files} {follow : Bool} {budget : Nat} {here W loc : Location}
  {path name : String} {names : List String}

/-- The path spells out a location, whatever is there. -/
structure IsTextOf (path : String) (W : Location) : Prop where
  text : path = Location.text W
  plain : ∀ name ∈ W, IsPlain name

namespace IsTextOf

theorem isAbsolute (ht : IsTextOf path W) : Path.isAbsolute path = true :=
  ht.text ▸ Path.isAbsolute_text W

theorem names_eq (ht : IsTextOf path W) (hroot : W ≠ []) : Path.names path = "" :: W := by
  rw [ht.text]
  exact Path.names_text hroot fun n hn => (ht.plain n hn).noSlash

/-- The text of a location with a name joined to it is that of the entry of the name. -/
theorem join (ht : IsTextOf path W) (hname : IsPlain name) :
    IsTextOf (Path.join path name) (W ++ [name]) where
  text := by
    rw [ht.text]
    exact Path.join_text (fun n hn => (ht.plain n hn).ne_empty) (fun n hn => (ht.plain n hn).noSlash)
      hname.noSlash
  plain n hn := by
    rcases List.mem_append.mp hn with hn | hn
    · exact ht.plain n hn
    · exact List.mem_singleton.mp hn ▸ hname

end IsTextOf

/-- The path spells out the location of a directory, without a link on the way. -/
structure IsDirect (fs : Files) (path : String) (W : Location) : Prop where
  text : path = Location.text W
  plain : ∀ name ∈ W, IsPlain name
  directories : ∀ x, x <+: W → fs.get? x = some .directory

theorem hasNul_append (a b : String) : hasNul (a ++ b) = (hasNul a || hasNul b) := by
  rw [hasNul, String.toList_append]
  simp [hasNul]

/-- Texts that are not too long to be looked up. -/
structure Fits (path : String) (names : List String) : Prop where
  short : path.utf8ByteSize ≤ longestPath
  steps : ∀ name ∈ names, IsStep name

/-- What fits below a directory is below one that fits. -/
theorem Fits.of_join (hname : IsPlain name) (hfits : Fits (Path.join path name) (W ++ [name])) :
    Fits path W where
  short := Nat.le_trans (Path.utf8ByteSize_le_join path hname.noSlash) hfits.short
  steps n hn := hfits.steps n (List.mem_append_left _ hn)

/-- With plain names and no links there is one way to walk. -/
theorem Walks.straight {found : Found} (h : fs.Walks follow budget names loc found)
    (hplain : ∀ name ∈ names, IsPlain name)
    (hlinks : ∀ x, x <+: names → x ≠ [] → ∀ target, fs.get? (loc ++ x) ≠ some (.link target)) :
    found.location = loc ++ names ∧ ∀ name ∈ names, IsStep name := by
  induction h with
  | arrive => exact ⟨(List.append_nil _).symm, List.forall_mem_nil _⟩
  | blank hblank onward ih => exact ((hplain _ List.mem_cons_self).notBlank hblank).elim
  | up onward ih => exact ((hplain _ List.mem_cons_self).ne_dots rfl).elim
  | stop hstep hentry hstop hlink =>
    exact ⟨rfl, fun name hmem => List.mem_singleton.mp hmem ▸ hstep⟩
  | @down budget name rest loc found hstep hentry onward ih =>
    obtain ⟨hlocation, hsteps⟩ := ih (fun n hn => hplain n (List.mem_cons_of_mem name hn)) (by
      intro x hx _ target
      rw [List.append_assoc, List.singleton_append]
      exact hlinks (name :: x) (List.cons_prefix_cons.mpr ⟨rfl, hx⟩) nofun target)
    refine ⟨?_, List.forall_mem_cons.mpr ⟨hstep, hsteps⟩⟩
    rw [hlocation, List.append_assoc, List.singleton_append]
  | @jump budget name target rest loc found hstep hentry hlast onward ih =>
    exact (hlinks [name] (List.cons_prefix_cons.mpr ⟨rfl, List.nil_prefix⟩) nofun _ hentry).elim

namespace IsDirect

theorem of_keepsDirectories (hd : fs.IsDirect path W)
    (hkeeps : ∀ x, fs.get? x = some .directory → fs'.get? x = some .directory) :
    fs'.IsDirect path W where
  text := hd.text
  plain := hd.plain
  directories x hx := hkeeps x (hd.directories x hx)

theorem ne_empty (hd : fs.IsDirect path W) : path ≠ "" := by
  rintro rfl
  have habsolute := Path.isAbsolute_text W
  rw [← hd.text] at habsolute
  exact absurd habsolute (by decide)

theorem isTextOf (hd : fs.IsDirect path W) : IsTextOf path W := ⟨hd.text, hd.plain⟩

theorem isAbsolute (hd : fs.IsDirect path W) : Path.isAbsolute path = true := hd.isTextOf.isAbsolute

theorem getLast?_ne (hd : fs.IsDirect path W) (hroot : W ≠ []) :
    path.toList.getLast? ≠ some Path.slash := by
  rw [hd.text]
  exact Path.getLast?_text hroot (fun n hn => (hd.plain n hn).ne_empty)
    fun n hn => (hd.plain n hn).noSlash

theorem names_eq (hd : fs.IsDirect path W) (hroot : W ≠ []) : Path.names path = "" :: W :=
  hd.isTextOf.names_eq hroot

theorem plain_concat (hd : fs.IsDirect path W) (hname : IsPlain name) :
    ∀ n ∈ W ++ [name], IsPlain n :=
  (hd.isTextOf.join hname).plain

theorem join_eq_text (hd : fs.IsDirect path W) (hname : IsPlain name) :
    Path.join path name = Location.text (W ++ [name]) :=
  (hd.isTextOf.join hname).text

theorem isAbsolute_join (hd : fs.IsDirect path W) (hname : IsPlain name) :
    Path.isAbsolute (Path.join path name) = true :=
  (hd.isTextOf.join hname).isAbsolute

theorem names_join (hd : fs.IsDirect path W) (hname : IsPlain name) :
    Path.names (Path.join path name) = "" :: (W ++ [name]) :=
  (hd.isTextOf.join hname).names_eq (by simp)

theorem directory_join (hd : fs.IsDirect path W) (hroot : W ≠ []) (hname : IsPlain name) :
    Path.directory (Path.join path name) = path :=
  Path.directory_join hd.ne_empty (hd.getLast?_ne hroot) hname.noSlash

/-- No link stands on the way to an entry that is none itself. -/
theorem no_links (hd : fs.IsDirect path W)
    (hlink : ∀ target, fs.get? (W ++ [name]) ≠ some (.link target)) :
    ∀ x, x <+: W ++ [name] → ∀ target, fs.get? x ≠ some (.link target) := by
  intro x hx target
  rcases List.prefix_concat_iff.mp hx with rfl | hx
  · exact hlink target
  · rw [hd.directories x hx]
    exact nofun

/-- Whatever is found under the path is found where the path says. -/
theorem location_of_find (hd : fs.IsDirect path W) {found : Found}
    (hfind : fs.find here follow path = .ok found) : found.location = W := by
  obtain ⟨-, -, hwalks⟩ := find_eq_ok_iff.mp hfind
  rw [if_pos hd.isAbsolute] at hwalks
  by_cases hroot : W = []
  · have hnames : Path.names path = ["", ""] := by
      rw [hd.text, hroot]
      decide +kernel
    rw [hnames] at hwalks
    have hwalk := walk_of_walks hwalks
    rw [walk_blank (.inl rfl), walk_blank (.inl rfl), walk_nil] at hwalk
    rw [← Except.ok.inj hwalk, hroot]
  · rw [hd.names_eq hroot] at hwalks
    have honward := walks_of_walk ((walk_blank (.inl rfl)).symm.trans (walk_of_walks hwalks))
    refine (honward.straight hd.plain fun x hx _ target hlink => ?_).1
    exact nomatch (hd.directories x hx).symm.trans hlink

/-- A directory is looked up by its own path. -/
theorem find (hd : fs.IsDirect path W) (hroot : W ≠ []) (hfits : Fits path W) :
    fs.find here follow path = .ok ⟨W, some .directory⟩ :=
  find_of_directories (hd.names_eq hroot) hd.isAbsolute hfits.short hfits.steps
    (fun k _ => hd.directories _ (List.take_prefix k W)) (hd.directories W List.prefix_rfl) nofun

/-- An entry is looked up by its name joined to the path. -/
theorem find_join (hd : fs.IsDirect path W) (hname : IsPlain name)
    (hfits : Fits (Path.join path name) (W ++ [name]))
    (hlink : ∀ target, fs.get? (W ++ [name]) ≠ some (.link target)) :
    fs.find here follow (Path.join path name) = .ok ⟨W ++ [name], fs.get? (W ++ [name])⟩ := by
  refine find_of_directories (hd.names_join hname) (hd.isAbsolute_join hname) hfits.short hfits.steps
    (fun k hk => ?_) rfl hlink
  rw [List.length_append, List.length_singleton] at hk
  rw [List.take_append_of_le_length (Nat.le_of_lt_succ hk)]
  exact hd.directories _ (List.take_prefix k W)

/-- What is found under a joined name stands where the path says. -/
theorem of_find_join (hd : fs.IsDirect path W) (hname : IsPlain name)
    (hlink : ∀ target, fs.get? (W ++ [name]) ≠ some (.link target)) {found : Found}
    (hfind : fs.find here follow (Path.join path name) = .ok found) :
    found.location = W ++ [name] ∧ Fits (Path.join path name) (W ++ [name]) := by
  obtain ⟨-, hshort, hwalks⟩ := find_eq_ok_iff.mp hfind
  rw [hd.names_join hname, if_pos (hd.isAbsolute_join hname)] at hwalks
  have honward : fs.Walks follow linkLimit (W ++ [name]) [] found :=
    walks_of_walk ((walk_blank (.inl rfl)).symm.trans (walk_of_walks hwalks))
  obtain ⟨hlocation, hsteps⟩ := honward.straight (hd.plain_concat hname)
    fun x hx _ target => hd.no_links hlink x hx target
  exact ⟨hlocation, hshort, hsteps⟩

theorem realPath_join (hd : fs.IsDirect path W) (hname : IsPlain name)
    (hlink : ∀ target, fs.get? (W ++ [name]) ≠ some (.link target)) :
    fs.realPath here (Path.join path name) = Path.join path name := by
  have hproper : proper ("" :: (W ++ [name])) = W ++ [name] := by
    rw [proper, List.filter_cons_of_neg (by simp), List.filter_eq_self]
    intro n hn
    have hplain := hd.plain_concat hname n hn
    simp [hplain.ne_empty, hplain.ne_dot]
  have hup : ".." ∉ "" :: (W ++ [name]) := by
    intro hmem
    rcases List.mem_cons.mp hmem with heq | hmem
    · exact absurd heq (by decide)
    · exact (hd.plain_concat hname _ hmem).ne_dots rfl
  simp only [realPath, hd.isAbsolute_join hname, ↓reduceIte, hd.names_join hname]
  rw [follow_of_noLinks hup _ _ _ (by
    intro x hx _ target
    rw [hproper] at hx
    exact hd.no_links hlink x hx target), hproper]
  exact (hd.join_eq_text hname).symm

theorem join_eq_append (hd : fs.IsDirect path W) (hroot : W ≠ []) (hname : IsPlain name) :
    Path.join path name = path ++ "/" ++ name :=
  Path.join_of_ne_slash hd.ne_empty hname.noSlash (hd.getLast?_ne hroot)

theorem hasNul_join (hd : fs.IsDirect path W) (hroot : W ≠ []) (hname : IsPlain name) :
    hasNul (Path.join path name) = (hasNul path || hasNul name) := by
  rw [hd.join_eq_append hroot hname, hasNul_append, hasNul_append]
  simp [show hasNul "/" = false by decide]

theorem pathExists_join (hd : fs.IsDirect path W) (hname : IsPlain name)
    (hfits : Fits (Path.join path name) (W ++ [name])) (hnul : hasNul (Path.join path name) = false)
    (hthere : fs.get? (W ++ [name]) ≠ none)
    (hlink : ∀ target, fs.get? (W ++ [name]) ≠ some (.link target)) :
    fs.pathExists here (Path.join path name) = true := by
  rw [pathExists_of_find hnul (hd.find_join hname hfits hlink)]
  exact Option.isSome_iff_ne_none.mpr hthere

end IsDirect

end Files

namespace Host
open Files
variable {h : Host} {path name : String} {W : Location}

/-- No home directory is in question. -/
theorem expandHome_of_isAbsolute {homes : Path.Homes} (habsolute : Path.isAbsolute path = true) :
    Path.expandHome homes path = path := by
  obtain ⟨cs, hcs⟩ := Path.toList_of_isAbsolute habsolute
  rw [Path.expandHome, ← String.ofList_toList (s := path), String.toList_ofList, hcs]
  rfl

theorem expandText_of_isAbsolute (habsolute : Path.isAbsolute path = true)
    (hdollar : '$' ∉ path.toList) : h.expandText path = path := by
  rw [expandText, expandHome_of_isAbsolute habsolute, Path.expandVariables,
    Path.expandVariablesIn_eq_self _ hdollar, String.ofList_toList]

theorem namesAccountWithNul_of_isAbsolute (habsolute : Path.isAbsolute path = true) :
    Path.namesAccountWithNul path = false := by
  obtain ⟨cs, hcs⟩ := Path.toList_of_isAbsolute habsolute
  rw [Path.namesAccountWithNul, hcs]
  rfl

/-- A joined path without variables is absolute as it is written. -/
theorem expandPath_join (hd : h.files.IsDirect path W) (hroot : W ≠ []) (hname : IsPlain name)
    (hdollar : '$' ∉ path.toList) (hdollar' : '$' ∉ name.toList)
    (hnul : hasNul (Path.join path name) = false) (hfits : Fits path W)
    (hlink : ∀ target, h.files.get? (W ++ [name]) ≠ some (.link target)) :
    h.expandPath (Path.join path name) true = .ok (Path.join path name) := by
  have habsolute := hd.isAbsolute_join hname
  have hvariable : '$' ∉ (Path.join path name).toList := by
    rw [hd.join_eq_append hroot hname, String.toList_append, String.toList_append]
    simp [hdollar, hdollar']
  have hplain : hasNul path = false := by
    rw [hd.hasNul_join hroot hname, Bool.or_eq_false_iff] at hnul
    exact hnul.1
  have hparent : h.isDirectory path = true := isDirectory_of_find hplain (hd.find hroot hfits)
  simp only [expandPath, expandText_of_isAbsolute habsolute hvariable, hnul,
    namesAccountWithNul_of_isAbsolute habsolute, Bool.and_false, Bool.or_false, Bool.false_eq_true,
    ↓reduceIte, hd.realPath_join hname hlink, hd.directory_join hroot hname, hparent]

end Host

end BitcodeWrapper
