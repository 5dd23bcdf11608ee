import BitcodeWrapper.Proofs.Host.Direct
import BitcodeWrapper.Proofs.Path.Normal

/-! Paths that are made absolute with their links kept. The answer is in normal form, which does not depend
on what is there; only its directory is looked up. -/
namespace BitcodeWrapper

namespace Files
variable {here : Location} {path : String} {slashes : Nat} {ss : List (List Char)}

theorem exists_absolutePath_eq (here : Location) (path : String) :
    ∃ text, Path.isAbsolute text = true ∧ absolutePath here path = Path.normal text := by
  rw [absolutePath]
  split
  · exact ⟨path, ‹_›, rfl⟩
  · exact ⟨_, Path.isAbsolute_join_left (Path.isAbsolute_text here) path, rfl⟩

theorem exists_spells_absolutePath (here : Location) (path : String) :
    ∃ slashes ss, Path.Spells (absolutePath here path) slashes ss := by
  obtain ⟨text, habsolute, htext⟩ := exists_absolutePath_eq here path
  exact ⟨_, _, htext ▸ Path.spells_normal habsolute⟩

theorem absolutePath_of_spells (hs : Path.Spells path slashes ss) : absolutePath here path = path := by
  rw [absolutePath, if_pos hs.isAbsolute, hs.normal_eq]

end Files

namespace Host
open Files
variable {h : Host} {path : String}

/-- The path can be looked up, and a directory is found. -/
def LeadsToDirectory (h : Host) (path : String) : Prop :=
  hasNul path = false ∧ ∃ loc, h.files.find h.here true path = .ok ⟨loc, some .directory⟩

/-- The absolute path that a path stands for, whatever is there. -/
def wholeOf (h : Host) (path : String) : String := absolutePath h.here (h.expandText path)

theorem namesAccountWithNul_of_hasNul (hnul : hasNul path = false) :
    Path.namesAccountWithNul path = false := by
  have hmem : '\x00' ∉ path.toList := by simpa [hasNul] using hnul
  rw [Path.namesAccountWithNul]
  split
  · rename_i rest htext
    rw [htext, List.mem_cons, not_or] at hmem
    have hprefix : '\x00' ∉ rest.takeWhile (· != Path.slash) :=
      fun hnul => hmem.2 ((List.takeWhile_prefix _).subset hnul)
    simpa using hprefix
  · rfl

theorem expandPath_eq (haccount : Path.namesAccountWithNul path = false) :
    h.expandPath path false =
      if h.isDirectory (Path.directory (h.wholeOf path)) then .ok (h.wholeOf path)
      else .error (.os ⟨.noSuchFile, "failed to expand path " ++ path,
        some (Path.directory (h.wholeOf path))⟩) := by
  unfold expandPath
  simp only [haccount, Bool.false_and, Bool.or_self, Bool.false_eq_true, ↓reduceIte]
  rfl

theorem expandPath_of_leadsToDirectory (haccount : Path.namesAccountWithNul path = false)
    (hd : h.LeadsToDirectory (Path.directory (h.wholeOf path))) :
    h.expandPath path false = .ok (h.wholeOf path) := by
  rw [expandPath_eq haccount]
  exact if_pos (isDirectory_iff.mpr hd)

theorem expandPath_of_not_leadsToDirectory (haccount : Path.namesAccountWithNul path = false)
    (hd : ¬ h.LeadsToDirectory (Path.directory (h.wholeOf path))) :
    h.expandPath path false = .error (.os ⟨.noSuchFile, "failed to expand path " ++ path,
      some (Path.directory (h.wholeOf path))⟩) := by
  rw [expandPath_eq haccount]
  exact if_neg (mt isDirectory_iff.mp hd)

/-- Nothing is left to be expanded in a path that was made absolute, unless it has a dollar sign. -/
theorem wholeOf_of_spells {slashes : Nat} {ss : List (List Char)} (hs : Path.Spells path slashes ss)
    (hdollar : '$' ∉ path.toList) : h.wholeOf path = path := by
  rw [wholeOf, expandText_of_isAbsolute hs.isAbsolute hdollar, absolutePath_of_spells hs]

/-- A path is refused exactly if no directory is found where its last name would be. The answer is absolute
and in normal form, and without a dollar sign it is its own answer. -/
theorem expandPath_answers_normal (hnul : hasNul path = false) :
    (Path.isAbsolute (h.wholeOf path) = true ∧ Path.IsNormal (h.wholeOf path) ∧
      ∀ slashes ss, Path.Spells (h.wholeOf path) slashes ss →
        Path.Spells (Path.directory (h.wholeOf path)) slashes ss.dropLast) ∧
    ((∃ e, h.expandPath path false = .error (.os e)) ↔
      ¬ h.LeadsToDirectory (Path.directory (h.wholeOf path))) ∧
    (h.LeadsToDirectory (Path.directory (h.wholeOf path)) →
      h.expandPath path false = .ok (h.wholeOf path) ∧
      ('$' ∉ (h.wholeOf path).toList →
        h.expandPath (h.wholeOf path) false = .ok (h.wholeOf path))) := by
  have haccount := namesAccountWithNul_of_hasNul hnul
  obtain ⟨slashes, ss, hs⟩ := exists_spells_absolutePath h.here (h.expandText path)
  change Path.Spells (h.wholeOf path) slashes ss at hs
  refine ⟨⟨hs.isAbsolute, Path.isNormal_iff.mpr ⟨slashes, ss, hs⟩, fun _ _ hs => hs.directory⟩, ?_, ?_⟩
  · constructor
    · rintro ⟨e, he⟩ hd
      rw [expandPath_of_leadsToDirectory haccount hd] at he
      exact nomatch he
    · exact fun hd => ⟨_, expandPath_of_not_leadsToDirectory haccount hd⟩
  · refine fun hd => ⟨expandPath_of_leadsToDirectory haccount hd, fun hdollar => ?_⟩
    have hwhole : h.wholeOf (h.wholeOf path) = h.wholeOf path := wholeOf_of_spells hs hdollar
    rw [expandPath_of_leadsToDirectory (namesAccountWithNul_of_isAbsolute hs.isAbsolute)
      (hwhole.symm ▸ hd), hwhole]

/-- A home directory with a slash at its end, and a variable with blank segments in its value. -/
def toolsBesideHome : Host :=
  .fresh ⟨[(["home"], .directory), (["home", "bin"], .directory)]⟩
    [("HOME", "/home/u/"), ("TOOLS", "bin//./x/..")]

theorem expandPath_toolsBesideHome :
    hasNul "~/../$TOOLS/./clang" = false ∧
      toolsBesideHome.wholeOf "~/../$TOOLS/./clang" = "/home/bin/clang" ∧
      toolsBesideHome.expandPath "~/../$TOOLS/./clang" false = .ok "/home/bin/clang" ∧
      toolsBesideHome.expandPath "/home/bin/clang" false = .ok "/home/bin/clang" := by
  have hnul : hasNul "~/../$TOOLS/./clang" = false := by decide +kernel
  have hwhole : toolsBesideHome.wholeOf "~/../$TOOLS/./clang" = "/home/bin/clang" := by decide +kernel
  have hparent : Path.directory "/home/bin/clang" = "/home/bin" := by decide +kernel
  have hfind : toolsBesideHome.files.find [] true "/home/bin" = .ok ⟨["home", "bin"], some .directory⟩ :=
    find_of_directories (by decide +kernel) (by decide) (by decide) (by decide) (by decide) rfl nofun
  have hd : toolsBesideHome.LeadsToDirectory "/home/bin" := ⟨by decide +kernel, _, hfind⟩
  have hanswer := (expandPath_answers_normal (h := toolsBesideHome) hnul).2.2
  rw [hwhole, hparent] at hanswer
  obtain ⟨hfirst, hagain⟩ := hanswer hd
  exact ⟨hnul, hwhole, hfirst, hagain (by decide +kernel)⟩

end Host

end BitcodeWrapper
