import BitcodeWrapper.Path.Loose

/-! What loose text becomes as a path. Every point of the path was written or is a character, and the text is
refused only for a name that the system cannot be asked for. -/
namespace BitcodeWrapper.Path.Loose
open Text

variable {α β : Type} {find : String → Option String} {homes : Homes} {env : Bindings} {here : String}
  {P : Point → Prop} {name ps qs out : Points} {fault : Fault}

theorem bind_eq_ok_iff {x : Except Fault α} {f : α → Except Fault β} {b : β} :
    x >>= f = .ok b ↔ ∃ a, x = .ok a ∧ f a = .ok b := by
  cases x with
  | error raised => exact ⟨nofun, fun ⟨_, hx, _⟩ => nomatch hx⟩
  | ok a => exact ⟨fun h => ⟨a, rfl, h⟩, fun ⟨_, hx, h⟩ => by cases hx; exact h⟩

theorem bind_eq_error_iff {x : Except Fault α} {f : α → Except Fault β} :
    x >>= f = .error fault ↔ x = .error fault ∨ ∃ a, x = .ok a ∧ f a = .error fault := by
  cases x with
  | error raised =>
    have hraised : (Except.error raised : Except Fault α) >>= f = .error raised := rfl
    simp [hraised]
  | ok a =>
    have hok : (Except.ok a : Except Fault α) >>= f = f a := rfl
    simp [hok]

/-! The points of a path. -/

theorem all_map_char (hchar : ∀ c, P (.char c)) (cs : List Char) : ∀ p ∈ cs.map Point.char, P p := by
  intro p hp
  obtain ⟨c, -, rfl⟩ := List.mem_map.mp hp
  exact hchar c

theorem all_named (hchar : ∀ c, P (.char c)) {value : Option Points} (h : named find name = .ok value) :
    ∀ points ∈ value, ∀ p ∈ points, P p := by
  rintro points rfl
  rw [named] at h
  split at h
  · exact nomatch h
  · obtain ⟨s, -, hs⟩ := Option.map_eq_some_iff.mp (Except.ok.inj h)
    rw [← hs]
    exact all_map_char hchar s.toList

theorem all_cons {p : Point} (hp : P p) (hps : ∀ q ∈ ps, P q) : ∀ q ∈ p :: ps, P q :=
  List.forall_mem_cons.mpr ⟨hp, hps⟩

theorem all_append (hps : ∀ p ∈ ps, P p) (hqs : ∀ p ∈ qs, P p) : ∀ p ∈ ps ++ qs, P p :=
  List.forall_mem_append.mpr ⟨hps, hqs⟩

theorem all_of_subset (hsub : qs ⊆ ps) (hps : ∀ p ∈ ps, P p) : ∀ p ∈ qs, P p :=
  fun p hp => hps p (hsub hp)

theorem all_below (hchar : ∀ c, P (.char c)) (hps : ∀ p ∈ ps, P p) (hqs : ∀ p ∈ qs, P p) :
    ∀ p ∈ below ps qs, P p := by
  rw [below]
  split
  · exact all_map_char hchar [Path.slash]
  · refine all_append ?_ hqs
    intro p hp
    exact hps p (List.mem_reverse.mp (List.dropWhile_subset _ (List.mem_reverse.mp hp)))

theorem all_expandHome (hchar : ∀ c, P (.char c)) (h : expandHome homes ps = .ok out)
    (hps : ∀ p ∈ ps, P p) : ∀ p ∈ out, P p := by
  rw [expandHome.eq_def] at h
  split at h
  · rename_i rest
    dsimp only at h
    split at h
    · exact nomatch h
    · cases hnamed : named (homeOf homes) (rest.takeWhile (· != slash)) with
      | error raised =>
        rw [hnamed] at h
        exact nomatch h
      | ok found =>
        rw [hnamed] at h
        cases found with
        | none =>
          cases h
          exact hps
        | some home =>
          cases h
          refine all_below hchar (all_named hchar hnamed home rfl) ?_
          exact all_of_subset (List.dropWhile_subset _) (all_of_subset (by simp) hps)
  · cases h
    exact hps

theorem named_eq_error_iff :
    named find name = .error fault ↔ fault = .invalidValue ∧ (LooseText.mk name).isEncodable = false := by
  rw [named]
  cases (LooseText.mk name).isEncodable with
  | true => simp
  | false => simp [eq_comm]

theorem not_isEncodable_of_subset (hqs : (LooseText.mk qs).isEncodable = false) (hsub : qs ⊆ ps) :
    (LooseText.mk ps).isEncodable = false := by
  obtain ⟨p, hp, hnone⟩ := List.all_eq_false.mp hqs
  exact List.all_eq_false.mpr ⟨p, hsub hp, hnone⟩

theorem fault_of_expandVariables (h : expandVariables env ps = .error fault) :
    fault = .invalidValue ∧ (LooseText.mk ps).isEncodable = false := by
  induction ps using expandVariables.induct with
  | case1 =>
    rw [expandVariables] at h
    exact nomatch h
  | case2 rest hclosed ih =>
    rw [expandVariables, if_pos hclosed] at h
    obtain hnamed | ⟨value, -, h⟩ := bind_eq_error_iff.mp h
    · obtain ⟨hfault, hname⟩ := named_eq_error_iff.mp hnamed
      have hsub : rest.takeWhile (· != .char '\x7d') ⊆ rest := List.takeWhile_subset _
      exact ⟨hfault, not_isEncodable_of_subset hname (List.Subset.trans hsub (by simp))⟩
    · obtain hmore | ⟨more, -, h⟩ := bind_eq_error_iff.mp h
      · obtain ⟨hfault, hrest⟩ := ih hmore
        have hsub : (rest.dropWhile (· != .char '\x7d')).drop 1 ⊆ rest :=
          List.Subset.trans (List.drop_subset _ _) (List.dropWhile_subset _)
        exact ⟨hfault, not_isEncodable_of_subset hrest (List.Subset.trans hsub (by simp))⟩
      · exact nomatch h
  | case3 rest hopen ih =>
    rw [expandVariables, if_neg hopen] at h
    obtain hmore | ⟨more, -, h⟩ := bind_eq_error_iff.mp h
    · exact (ih hmore).imp_right fun hrest => not_isEncodable_of_subset hrest (by simp)
    · exact nomatch h
  | case4 rest hbrace name hname =>
    rename_i ih
    rw [expandVariables, if_pos hname] at h
    · obtain hmore | ⟨more, -, h⟩ := bind_eq_error_iff.mp h
      · exact (ih hmore).imp_right fun hrest => not_isEncodable_of_subset hrest (by simp)
      · exact nomatch h
    · exact hbrace
  | case5 rest hbrace name hname =>
    rename_i ih
    rw [expandVariables, if_neg hname] at h
    · obtain hnamed | ⟨value, -, h⟩ := bind_eq_error_iff.mp h
      · obtain ⟨hfault, hunnamed⟩ := named_eq_error_iff.mp hnamed
        have hsub : rest.takeWhile isAsciiWord ⊆ rest := List.takeWhile_subset _
        exact ⟨hfault, not_isEncodable_of_subset hunnamed (List.Subset.trans hsub (by simp))⟩
      · obtain hmore | ⟨more, -, h⟩ := bind_eq_error_iff.mp h
        · obtain ⟨hfault, hrest⟩ := ih hmore
          have hsub : rest.dropWhile isAsciiWord ⊆ rest := List.dropWhile_subset _
          exact ⟨hfault, not_isEncodable_of_subset hrest (List.Subset.trans hsub (by simp))⟩
        · exact nomatch h
    · exact hbrace
  | case6 p rest hbrace hdollar ih =>
    rw [expandVariables] at h
    · obtain hmore | ⟨more, -, h⟩ := bind_eq_error_iff.mp h
      · exact (ih hmore).imp_right fun hrest => not_isEncodable_of_subset hrest (by simp)
      · exact nomatch h
    all_goals assumption

theorem fault_of_expandHome (h : expandHome homes ps = .error fault) :
    fault = .invalidValue ∧ (LooseText.mk ps).isPassable = false := by
  rw [expandHome.eq_def] at h
  split at h
  · rename_i rest
    have hsub : rest.takeWhile (· != slash) ⊆ .char '~' :: rest :=
      List.Subset.trans (List.takeWhile_subset _) (by simp)
    dsimp only at h
    split at h
    · rename_i hnul
      cases h
      have hmem : Point.char '\x00' ∈ Point.char '~' :: rest := hsub (List.contains_iff_mem.mp hnul)
      simp [LooseText.isPassable, LooseText.hasNul, hmem]
    · cases hnamed : named (homeOf homes) (rest.takeWhile (· != slash)) with
      | error raised =>
        rw [hnamed] at h
        cases h
        obtain ⟨hfault, hname⟩ := named_eq_error_iff.mp hnamed
        exact ⟨hfault, by simp [LooseText.isPassable, not_isEncodable_of_subset hname hsub]⟩
      | ok found =>
        rw [hnamed] at h
        exact nomatch h
  · exact nomatch h

end BitcodeWrapper.Path.Loose
