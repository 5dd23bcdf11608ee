import BitcodeWrapper.Proofs.Host.RealPath
import BitcodeWrapper.Proofs.Job.Events
import BitcodeWrapper.Proofs.Outcome

/-! What the making of a workspace and of the files in it can end in. -/
namespace BitcodeWrapper.Workspace
open BitcodeWrapper.Action

/-- Either nothing is made and the cause is told, or a directory stands where nothing was. -/
theorem outcome_make (h : Host) :
    (∃ cause, outcome make h =
      (.error (.failure (.workspace cause)), { h with attempts := nextNumber h })) ∨
    ∃ loc, h.files.find h.here false (pathOf h (nextNumber h)) = .ok ⟨loc, none⟩ ∧
      outcome make h = (.ok (pathOf h (nextNumber h)),
        ({ h with attempts := nextNumber h, files := h.files.put loc .directory } : Host).accept
          (h.ownRecord .debug ("Created temp dir " ++ pathOf h (nextNumber h)))) := by
  simp only [make, outcome_bind, outcome_get, outcome_set]
  rcases h.files.find h.here false (pathOf h (nextNumber h)) with e | ⟨loc, _ | entry⟩
  · exact .inl ⟨_, rfl⟩
  · exact .inr ⟨loc, rfl, rfl⟩
  · exact .inl ⟨_, rfl⟩

/-- A name that is free is the next one. -/
theorem nextNumber_of_free {h : Host} {loc : Location}
    (hfree : h.files.find h.here false (pathOf h (h.attempts + 1)) = .ok ⟨loc, none⟩) :
    nextNumber h = h.attempts + 1 := by
  rw [nextNumber]
  cases h.files.entries.length with
  | zero => rfl
  | succ fuel =>
    unfold firstFree
    rw [hfree]

theorem outcome_make_of_free {h : Host} {loc : Location}
    (hfree : h.files.find h.here false (pathOf h (h.attempts + 1)) = .ok ⟨loc, none⟩) :
    outcome make h = (.ok (pathOf h (h.attempts + 1)),
      ({ h with attempts := h.attempts + 1, files := h.files.put loc .directory } : Host).accept
        (h.ownRecord .debug ("Created temp dir " ++ pathOf h (h.attempts + 1)))) := by
  simp only [make, outcome_bind, outcome_get, outcome_set, nextNumber_of_free hfree, hfree]
  rfl

/-- The answer for a file that was made: its absolute path, unless that is refused. -/
def fileAnswer (path : String) : Except Fault String → Except Fault String
  | .error (.os e) => .error (.failure (.workspace (.file path e)))
  | r => r

/-- A file is not made, or it is made or emptied and its path is then made absolute. -/
theorem outcome_createFile (directory name : String) (h : Host) :
    (∃ fault, (Job.Step.createFile directory name).CanFail fault ∧
      outcome (createFile directory name) h = (.error fault, h)) ∨
    ∃ files loc, h.files.openForWriting h.here false (Path.join directory name) = .ok (files, loc) ∧
      outcome (createFile directory name) h =
        (fileAnswer (Path.join directory name)
          (({ h with files := files } : Host).expandPath (Path.join directory name) true),
        { h with files := files }) := by
  simp only [createFile]
  by_cases hnul : Files.hasNul (Path.join directory name) = true
  · rw [if_pos hnul]
    exact .inl ⟨.invalidValue, .inr rfl, rfl⟩
  · rw [if_neg hnul]
    simp only [outcome_bind, outcome_get]
    rcases h.files.openForWriting h.here false (Path.join directory name) with e | ⟨files, loc⟩
    · exact .inl ⟨_, .inl ⟨_, rfl⟩, rfl⟩
    · refine .inr ⟨files, loc, rfl, ?_⟩
      simp only [outcome_bind, outcome_set]
      rcases he : ({ h with files := files } : Host).expandPath (Path.join directory name) true with
        fault | whole
      · obtain rfl | ⟨e, rfl⟩ := Host.fault_of_expandPath he <;> rfl
      · rfl

theorem outcome_createFile_of_opened {directory name whole : String} {h : Host} {files : Files}
    {loc : Location} (hnul : Files.hasNul (Path.join directory name) = false)
    (hopened : h.files.openForWriting h.here false (Path.join directory name) = .ok (files, loc))
    (hwhole : ({ h with files := files } : Host).expandPath (Path.join directory name) true =
      .ok whole) :
    outcome (createFile directory name) h = (.ok whole, { h with files := files }) := by
  simp only [createFile, hnul, Bool.false_eq_true, ↓reduceIte, outcome_bind, outcome_get, hopened,
    outcome_set, hwhole, outcome_pure]

theorem canFail_of_fileAnswer {directory name path : String} {h : Host} {fault : Fault}
    (hf : fileAnswer path (h.expandPath path true) = .error fault) :
    (Job.Step.createFile directory name).CanFail fault := by
  rcases he : h.expandPath path true with fault' | whole <;> rw [he] at hf
  · obtain rfl | ⟨e, rfl⟩ := Host.fault_of_expandPath he
    · cases hf
      exact .inr rfl
    · cases hf
      exact .inl ⟨_, rfl⟩
  · exact nomatch hf

/-- Files that are made have absolute paths. -/
theorem isAbsolute_of_createFile {h h' : Host} {directory name whole : String}
    (hout : outcome (createFile directory name) h = (.ok whole, h')) :
    Path.isAbsolute whole = true := by
  obtain ⟨fault, -, ho⟩ | ⟨files, loc, -, ho⟩ := outcome_createFile directory name h
  · exact nomatch congrArg Prod.fst (hout.symm.trans ho)
  · have hanswer := congrArg Prod.fst (hout.symm.trans ho)
    dsimp only at hanswer
    rcases he : ({ h with files := files } : Host).expandPath (Path.join directory name) true with
      fault | path
    · rw [he] at hanswer
      obtain rfl | ⟨e, rfl⟩ := Host.fault_of_expandPath he <;> exact nomatch hanswer
    · rw [he] at hanswer
      rw [Except.ok.inj hanswer]
      exact Host.isAbsolute_of_expandPath he

end BitcodeWrapper.Workspace
