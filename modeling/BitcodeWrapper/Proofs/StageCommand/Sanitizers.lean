import BitcodeWrapper.Proofs.Path.Join
import BitcodeWrapper.Proofs.Pattern.Reading
import BitcodeWrapper.StageCommand

/-! Lists of sanitizers: the flag that takes them, and one identifier or more joined by single commas. The
pattern matches these and nothing else, as the stages have it and as it is written. -/
namespace BitcodeWrapper.StageCommand
open Pattern

def sanitizersText : String := "-fsanitize=[\\w-]+(,[\\w-]+)*"

def sanitizerFlag : String := "-fsanitize="

def IsIdentifier (name : String) : Prop :=
  name ≠ "" ∧ ∀ c ∈ name.toList, Text.isWord c = true ∨ c = '-'

def ListsSanitizers (a : String) : Prop :=
  ∃ names : List String, names ≠ [] ∧ (∀ name ∈ names, IsIdentifier name) ∧
    a = sanitizerFlag ++ String.intercalate "," names

variable {a list : String} {c : Char} {p : Pattern}

theorem covers_identifierChar : identifierChar.covers c = true ↔ Text.isWord c = true ∨ c = '-' := by
  have hdash : ClassItem.covers c (.range '-' '-') = (c == '-') := by
    have hsingle := CharClass.covers_single '-' c
    rwa [CharClass.single, CharClass.covers, List.any_cons, List.any_nil, Bool.or_false,
      Bool.bne_false] at hsingle
  rw [identifierChar, CharClass.covers, List.any_cons, List.any_cons, List.any_nil, Bool.or_false,
    Bool.bne_false, hdash, ClassItem.covers, Bool.bne_false, Bool.or_eq_true, beq_iff_eq]

theorem denotes_identifier :
    Denotes identifier fun cs => ∃ name, IsIdentifier name ∧ cs = name.toList := by
  refine (denotes_plus_one identifierChar).congr fun cs => ?_
  simp only [covers_identifierChar, IsIdentifier]
  constructor
  · rintro ⟨hne, hall⟩
    exact ⟨String.ofList cs, ⟨by simpa using hne, by simpa using hall⟩, by simp⟩
  · rintro ⟨name, ⟨hne, hall⟩, rfl⟩
    exact ⟨Path.toList_ne_nil hne, hall⟩

theorem toList_intercalate_cons (name : String) (names : List String) :
    (String.intercalate "," (name :: names)).toList =
      name.toList ++ names.flatMap fun name => ',' :: name.toList := by
  induction names generalizing name with
  | nil => simp
  | cons next names ih =>
    rw [List.flatMap_cons, List.cons_append, ← ih next]
    simp [String.toList_intercalate]

/-- The list with its first identifier apart. -/
theorem listsSanitizers_iff : ListsSanitizers a ↔ ∃ (first : String) (names : List String), IsIdentifier first ∧
    (∀ name ∈ names, IsIdentifier name) ∧
    a.toList = sanitizerFlag.toList ++ (first.toList ++ names.flatMap fun name => ',' :: name.toList) := by
  constructor
  · rintro ⟨names, hne, hnames, rfl⟩
    obtain ⟨first, names, rfl⟩ := List.exists_cons_of_ne_nil hne
    obtain ⟨hfirst, hnames⟩ := List.forall_mem_cons.mp hnames
    exact ⟨first, names, hfirst, hnames, by rw [String.toList_append, toList_intercalate_cons]⟩
  · rintro ⟨first, names, hfirst, hnames, htext⟩
    refine ⟨first :: names, List.cons_ne_nil _ _, List.forall_mem_cons.mpr ⟨hfirst, hnames⟩, ?_⟩
    apply String.toList_injective
    rw [htext, String.toList_append, toList_intercalate_cons]

/-- However the flag itself is put together. -/
theorem denotes_list (hflag : Denotes p (· = sanitizerFlag.toList)) :
    Denotes (.seq (.seq p identifier) (.star (.seq (.char ',') identifier)))
      fun cs => ListsSanitizers (String.ofList cs) := by
  have hmore : Denotes (.seq (.char ',') identifier)
      fun cs => ∃ name, IsIdentifier name ∧ cs = ',' :: String.toList name :=
    ((denotes_char ',').seq denotes_identifier).congr fun cs =>
      ⟨fun ⟨_, _, hcomma, ⟨name, hname, hys⟩, hcs⟩ => ⟨name, hname, by rw [hcs, hcomma, hys]; rfl⟩,
        fun ⟨name, hname, hcs⟩ => ⟨_, _, rfl, ⟨name, hname, rfl⟩, hcs⟩⟩
  refine ((hflag.seq denotes_identifier).seq hmore.star).congr fun cs => ?_
  rw [listsSanitizers_iff, String.toList_ofList]
  constructor
  · rintro ⟨_, _, ⟨_, _, rfl, ⟨first, hfirst, rfl⟩, rfl⟩, ⟨names, hnames, rfl⟩, rfl⟩
    exact ⟨first, names, hfirst, hnames, List.append_assoc _ _ _⟩
  · rintro ⟨first, names, hfirst, hnames, rfl⟩
    exact ⟨_, _, ⟨_, _, rfl, ⟨first, hfirst, rfl⟩, rfl⟩, ⟨names, hnames, rfl⟩,
      (List.append_assoc _ _ _).symm⟩

theorem matchesAll_iff_of_denotes (h : Denotes p fun cs => ListsSanitizers (String.ofList cs)) :
    p.matchesAll a = true ↔ ListsSanitizers a := by
  have hwhole : Reads p true a.toList [] ↔ ListsSanitizers (String.ofList a.toList) := h _ _ _
  rw [matchesAll_iff, hwhole, String.ofList_toList]

theorem matchesAll_sanitizers_iff : sanitizers.matchesAll a = true ↔ ListsSanitizers a :=
  matchesAll_iff_of_denotes (denotes_list (denotes_literal _))

instance : DecidablePred ListsSanitizers := fun _ => decidable_of_iff _ matchesAll_sanitizers_iff

theorem withoutMatching_eq_filter (hp : ∀ a, p.matchesAll a = true ↔ ListsSanitizers a)
    (args : Arguments) : args.withoutMatching p = args.filter (¬ ListsSanitizers ·) := by
  refine List.filter_congr fun a _ => ?_
  rw [Bool.eq_iff_iff, Bool.not_eq_true', decide_eq_true_iff, ← hp, Bool.not_eq_true]

/-- In the written form the characters of the flag are put behind one another from the left. -/
theorem withoutWritten?_eq_filter (args : Arguments) :
    args.withoutWritten? sanitizersText = some (args.filter (¬ ListsSanitizers ·)) := by
  have hread : Pattern.ofString? sanitizersText =
      some (.seq (.seq (("fsanitize=".toList.map char).foldl .seq (char '-')) identifier)
        (.star (.seq (.char ',') identifier))) := by
    cbv
  have hflag : Denotes (("fsanitize=".toList.map char).foldl .seq (char '-'))
      (· = sanitizerFlag.toList) := (denotes_char '-').foldl_seq _
  rw [Arguments.withoutWritten?, if_neg (by decide), hread, Option.map_some,
    withoutMatching_eq_filter fun _ => matchesAll_iff_of_denotes (denotes_list hflag)]

/-- Texts that have something of a list of sanitizers and are none. -/
inductive LooksAlike : String → Prop
  | noIdentifier : LooksAlike sanitizerFlag
  | leadingComma {list : String} : LooksAlike (sanitizerFlag ++ ("," ++ list))
  | trailingComma {list : String} : LooksAlike (sanitizerFlag ++ (list ++ ","))
  | doubledComma {before after : String} : LooksAlike (sanitizerFlag ++ (before ++ ",," ++ after))
  | otherPrefix {a : String} (notFlag : ¬ sanitizerFlag.toList <+: a.toList) : LooksAlike a
  | trailingNewline {a : String} : LooksAlike (a ++ "\n")

/-- Cut at its commas, a list has no empty piece. -/
theorem not_listsSanitizers_of_gap (hgap : [] ∈ Path.cutAt ',' list.toList) :
    ¬ ListsSanitizers (sanitizerFlag ++ list) := by
  rintro ⟨names, hne, hnames, htext⟩
  have hlist : list.toList = List.intercalate [','] (names.map String.toList) := by
    rw [(String.append_right_inj sanitizerFlag).mp htext, String.toList_intercalate]
    rfl
  have hcomma : ∀ s ∈ names.map String.toList, ',' ∉ s := by
    intro s hs hmem
    obtain ⟨name, hname, rfl⟩ := List.mem_map.mp hs
    exact absurd ((hnames name hname).2 ',' hmem) (by decide)
  rw [hlist, Path.cutAt_intercalate (by simpa using hne) hcomma] at hgap
  obtain ⟨name, hname, hempty⟩ := List.mem_map.mp hgap
  exact (hnames name hname).1 (String.toList_eq_nil_iff.mp hempty)

/-- All characters are those of the flag, commas, and those of identifiers. -/
theorem newline_notMem_of_listsSanitizers (h : ListsSanitizers a) : '\n' ∉ a.toList := by
  obtain ⟨first, names, hfirst, hnames, htext⟩ := listsSanitizers_iff.mp h
  have hidentifier : ∀ name, IsIdentifier name → '\n' ∉ name.toList := fun name hname hmem =>
    absurd (hname.2 _ hmem) (by decide)
  rw [htext]
  refine List.not_mem_append (by decide) (List.not_mem_append (hidentifier first hfirst) fun hmem => ?_)
  obtain ⟨name, hname, hin⟩ := List.mem_flatMap.mp hmem
  exact hidentifier name (hnames name hname) ((List.mem_cons.mp hin).resolve_left (by decide))

theorem LooksAlike.not_listsSanitizers (h : LooksAlike a) : ¬ ListsSanitizers a := by
  cases h with
  | noIdentifier =>
    rw [← String.append_empty (s := sanitizerFlag)]
    exact not_listsSanitizers_of_gap (by decide)
  | leadingComma =>
    refine not_listsSanitizers_of_gap ?_
    rw [String.toList_append]
    exact List.mem_cons_self
  | trailingComma =>
    refine not_listsSanitizers_of_gap ?_
    rw [String.toList_append]
    exact Path.cutAt_append_mark ',' _ [] ▸ List.mem_append_right _ (List.mem_singleton_self _)
  | @doubledComma before after =>
    refine not_listsSanitizers_of_gap ?_
    have hcut : Path.cutAt ',' (before.toList ++ ',' :: ',' :: after.toList) = _ :=
      Path.cutAt_append_mark ',' _ _
    rw [String.toList_append, String.toList_append, List.append_assoc]
    exact hcut ▸ List.mem_append_right _ List.mem_cons_self
  | otherPrefix notFlag =>
    intro hlists
    obtain ⟨first, names, -, -, htext⟩ := listsSanitizers_iff.mp hlists
    exact notFlag ⟨_, htext.symm⟩
  | trailingNewline =>
    intro hlists
    refine newline_notMem_of_listsSanitizers hlists ?_
    rw [String.toList_append]
    exact List.mem_append_right _ (by decide)

/-- The pattern takes the lists of sanitizers out of the arguments and leaves all else as it is, in order. -/
theorem withoutWritten_takes_sanitizer_lists (args : Arguments) :
    args.withoutWritten? sanitizersText = some (args.filter (¬ ListsSanitizers ·)) ∧
      args.withoutMatching sanitizers = args.filter (¬ ListsSanitizers ·) ∧
      ∀ a ∈ args, LooksAlike a → a ∈ args.filter (¬ ListsSanitizers ·) := by
  refine ⟨withoutWritten?_eq_filter args,
    withoutMatching_eq_filter (fun _ => matchesAll_sanitizers_iff) args, fun a ha halike => ?_⟩
  exact List.mem_filter.mpr ⟨ha, decide_eq_true halike.not_listsSanitizers⟩

end BitcodeWrapper.StageCommand
