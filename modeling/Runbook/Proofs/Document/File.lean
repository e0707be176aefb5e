import Runbook.Proofs.Document.Acceptance

/-!
# What comes of a file

A file may hold any octets, and its path may lead nowhere. Loading it yields the workflow that the
value of its text defines, or it is refused with problems: there is no file to be read, or its text
is neither JSON nor YAML, or the value of the text defines no workflow. Some things escape: octets
that are no text, a scalar that denotes nothing, a key that cannot be shown and parameters without
an end are reported as what they are and not as problems, as is a null character in the path.

The module introduces:

* `Document.HoldsText` and `Document.HoldsValue`: what can be read at a path;
* `Document.Yields`, `Document.Refused` and `Document.Escapes`: the workflow that a file yields, the
  problems for which it is refused, and what escapes.

The main result is `Document.loadFile_reports`, by which these are what comes of loading.
-/

namespace Runbook

/-! ## Paths with a null character -/

namespace FileTree

variable {tree : FileTree} {path : Path}

/-- The null character is in the way of reading only where a path holds it. -/
theorem holdsNull_of_readText (h : tree.readText path = .error (.file .nullCharacter)) :
    path.holdsNull = true := by
  unfold readText read at h
  by_cases hnull : path.holdsNull = true
  · exact hnull
  · rw [if_neg hnull] at h
    cases hlookup : tree.lookup path with
    | error errno => rw [hlookup] at h; cases h
    | ok node =>
      rw [hlookup] at h
      cases node with
      | directory => cases h
      | file content =>
        dsimp only at h
        split at h <;> cases h

/-- It is in the way wherever a path holds it. -/
theorem readText_of_holdsNull (h : path.holdsNull = true) :
    tree.readText path = .error (.file .nullCharacter) := by
  unfold readText read
  rw [if_pos h]

end FileTree

namespace Document

/-! ## Documents that were read from a text -/

/-- The path of a document is kept with its workflow, and it does not matter otherwise. -/
theorem define_outcome (document : Value) (path : Option Path) :
    (define document path).outcome =
      (define document none).outcome.map fun w => { w with sourcePath := path } := by
  have hof (entries : Entries) (items : List Value) :
      (workflowOf path entries items).outcome =
        (workflowOf none entries items).outcome.map fun w => { w with sourcePath := path } := by
    unfold workflowOf
    obtain ⟨problems, log, outcome⟩ := findSteps entries items
    cases outcome with
    | error fault => rfl
    | ok steps =>
      -- The problems of a workflow are those of its steps.
      have hproblems : (⟨steps, path⟩ : Workflow).problems = (⟨steps, none⟩ : Workflow).problems :=
        rfl
      dsimp only
      rw [hproblems]
      cases withFurther problems (⟨steps, none⟩ : Workflow).problems with
      | nil => rfl
      | cons problem problems => rfl
  unfold define
  split
  case h_1 entries =>
    dsimp only
    split
    case isTrue => rfl
    case isFalse =>
      split
      case h_1 items hitems => exact hof entries items
      case h_2 => rfl
  case h_2 => rfl

/-- A key that cannot be shown ends the loading. -/
theorem define_of_not_isShowable {document : Value} (h : isShowable document = false)
    (path : Option Path) : (define document path).outcome = .error (.integer .tooLongToWrite) := by
  rcases toWorkflow_cases document path with
    ⟨entries, documents, rfl, hdocuments, hne⟩ | ⟨-, hshown, -⟩
  · rw [isShowable_of_list hdocuments hne] at h
    rw [← toWorkflow_eq_define, toWorkflow_of_list hdocuments hne, withReferences_outcome,
      workflowOf_of_not_shown path h]
  · cases hshown.symm.trans h

/-- An error for parameters without an end is no problem of the definition. -/
theorem endless?_ne_invalid {step : Step} {e : LoadError} (h : Loading.endless? step = some e)
    (problems : List Problem) : e ≠ .invalid problems := by
  obtain ⟨v, -, rfl⟩ := Option.map_eq_some_iff.mp h
  split <;> exact nofun

/-- What comes of a document that was read from a text: where its keys can be shown and its
parameters have an end, the workflow that it says, or else problems. -/
theorem textToWorkflow_outcome (document : Value) (path : Option Path) :
    (isShowable document = true ∧ ∃ w, Defines document w ∧
      (textToWorkflow document path).outcome =
        match w.steps.findSome? Loading.endless? with
        | none => .ok { w with sourcePath := path }
        | some e => .error e) ∨
    (isShowable document = true ∧ (∀ w, ¬Defines document w) ∧ ∃ problems,
      (toWorkflow document none).outcome = .error (.invalid problems) ∧
      (textToWorkflow document path).outcome = .error (.invalid problems)) ∨
    (isShowable document = false ∧
      (textToWorkflow document path).outcome = .error (.integer .tooLongToWrite)) := by
  have hpath := define_outcome document path
  rcases toWorkflow_outcome document with
    ⟨hshown, w, hw, h⟩ | ⟨hshown, hnone, problems, -, h⟩ | ⟨hhidden, -⟩
  · rw [← toWorkflow_eq_define document none, h] at hpath
    exact .inl ⟨hshown, w, hw, withReachableReferences_of_ok hpath⟩
  · rw [← toWorkflow_eq_define document none, h] at hpath
    exact .inr (.inl ⟨hshown, hnone, problems, h, withReachableReferences_of_error hpath⟩)
  · have hends := define_of_not_isShowable hhidden path
    exact .inr (.inr ⟨hhidden, withReachableReferences_of_error hends⟩)

/-- A workflow that a document says is loaded, unless the parameters of a step have no end. -/
theorem textToWorkflow_of_defines {document : Value} {w : Workflow}
    (hshown : isShowable document = true) (hdefines : Defines document w) (path : Option Path) :
    (textToWorkflow document path).outcome =
      match w.steps.findSome? Loading.endless? with
      | none => .ok { w with sourcePath := path }
      | some e => .error e := by
  rcases textToWorkflow_outcome document path with
    ⟨-, w', hdefines', houtcome⟩ | ⟨-, hnone, -⟩ | ⟨hhidden, -⟩
  · rw [hdefines.unique hdefines', houtcome]
  · exact absurd hdefines (hnone w)
  · cases hshown.symm.trans hhidden

/-! ## What files hold -/

section Files

variable (tree : FileTree) (path : Path)

/-- A text can be read at a path. -/
structure HoldsText (text : String) : Prop where
  /-- No null character is in the path. -/
  notNull : path.holdsNull = false
  /-- The text is what the file holds. -/
  text : tree.readText (tree.resolve path) = .ok text

/-- A text can be read at a path, and it is the text of a value. -/
inductive HoldsValue (v : Value) : Prop
  | mk {text : String} (htext : HoldsText tree path text) (hread : read text = .ok v)

/-- The workflow that a file yields: the one that its value defines, which is known by the path. -/
inductive Yields : Workflow → Prop
  | mk {v : Value} {w : Workflow} (hvalue : HoldsValue tree path v) (hdefines : Defines v w)
      (hshown : isShowable v = true) (hends : w.steps.findSome? Loading.endless? = none) :
      Yields { w with sourcePath := some (tree.resolve path) }

/-- The problems for which a file is refused. -/
inductive Refused : List Problem → Prop
  /-- There is no file, or none that can be read. -/
  | noFile {e : FileTree.Error} (hpath : path.holdsNull = false) (hnull : e ≠ .nullCharacter)
      (hread : tree.readText (tree.resolve path) = .error (.file e)) :
      Refused [⟨s!"Failed to load workflow: {e.message}", "", 2⟩]
  /-- The text is neither JSON nor YAML. -/
  | unreadable {text : String} {json : Json.Error} (htext : HoldsText tree path text)
      (hread : read text = .error (.unreadable json)) :
      Refused [⟨Error.message (some (tree.resolve path)) (.unreadable json), "", 2⟩]
  /-- The value of the text defines no workflow, for the reasons for which it makes none. -/
  | undefined {v : Value} {problems : List Problem} (hvalue : HoldsValue tree path v)
      (hshown : isShowable v = true) (hnone : ∀ w, ¬Defines v w)
      (hproblems : (toWorkflow v none).outcome = .error (.invalid problems)) : Refused problems

/-- What escapes: it ends the loading and is no problem of the definition. -/
inductive Escapes : LoadError → Prop
  /-- A null character is in the path. -/
  | nullCharacter
      (h : path.holdsNull = true ∨ (tree.resolve path).holdsNull = true) : Escapes .nullCharacter
  /-- The octets of the file are no text. -/
  | encoding {fault : Text.Utf8.Fault} (hpath : path.holdsNull = false)
      (hread : tree.readText (tree.resolve path) = .error (.encoding fault)) :
      Escapes (.encoding fault)
  /-- The text is well-formed YAML, but a scalar denotes no value of its type. -/
  | scalar {text : String} {fault : Yaml.Fault} (htext : HoldsText tree path text)
      (hread : read text = .error (.scalar fault)) : Escapes (.scalar fault)
  /-- A key that is to be shown holds an integer of too many digits. -/
  | hidden {v : Value} (hvalue : HoldsValue tree path v) (hshown : isShowable v = false) :
      Escapes (.integer .tooLongToWrite)
  /-- The parameters of a step have no end. -/
  | endless {v : Value} {w : Workflow} {e : LoadError} (hvalue : HoldsValue tree path v)
      (hdefines : Defines v w) (hshown : isShowable v = true)
      (hendless : w.steps.findSome? Loading.endless? = some e) : Escapes e

end Files

/-! ## What comes of loading -/

section Loading

variable {tree : FileTree} {path : Path}

/-- What comes of a file is what comes of its text, if that can be read. -/
theorem loadFile_outcome (hpath : path.holdsNull = false) :
    (loadFile tree path).outcome =
      match readFile tree (tree.resolve path) with
      | .error e => .error e
      | .ok text =>
        match decode text (some (tree.resolve path)) with
        | .error e => .error e
        | .ok v => (textToWorkflow v (some (tree.resolve path))).outcome := by
  rw [loadFile, if_neg (Bool.eq_false_iff.mp hpath)]
  dsimp only
  cases readFile tree (tree.resolve path) with
  | error e => rfl
  | ok text =>
    dsimp only
    cases decode text (some (tree.resolve path)) with
    | error e => rfl
    | ok v => rfl

theorem HoldsText.outcome {text : String} (h : HoldsText tree path text) :
    (loadFile tree path).outcome =
      match decode text (some (tree.resolve path)) with
      | .error e => .error e
      | .ok v => (textToWorkflow v (some (tree.resolve path))).outcome := by
  rw [loadFile_outcome h.notNull, readFile, h.text]

theorem HoldsValue.outcome {v : Value} (h : HoldsValue tree path v) :
    (loadFile tree path).outcome =
      (textToWorkflow v (some (tree.resolve path))).outcome := by
  obtain ⟨htext, hread⟩ := h
  rw [htext.outcome, decode, hread]

theorem Yields.outcome {w : Workflow} (h : Yields tree path w) :
    (loadFile tree path).outcome = .ok w := by
  obtain ⟨hvalue, hdefines, hshown, hends⟩ := h
  rw [hvalue.outcome, textToWorkflow_of_defines hshown hdefines, hends]

theorem Refused.outcome {problems : List Problem} (h : Refused tree path problems) :
    (loadFile tree path).outcome = .error (.invalid problems) := by
  cases h with
  | @noFile e hpath hnull hread =>
    rw [loadFile_outcome hpath, readFile, hread]
    cases e with
    | nullCharacter => exact absurd rfl hnull
    | refused errno path => rfl
  | unreadable htext hread => rw [htext.outcome, decode, hread]
  | @undefined v problems hvalue hshown hnone hproblems =>
    rw [hvalue.outcome]
    rcases textToWorkflow_outcome v (some (tree.resolve path)) with
      ⟨-, w, hdefines, -⟩ | ⟨-, -, problems', hproblems', houtcome⟩ | ⟨hhidden, -⟩
    · exact absurd hdefines (hnone w)
    · rw [houtcome, ← hproblems', hproblems]
    · cases hshown.symm.trans hhidden

theorem Escapes.outcome {e : LoadError} (h : Escapes tree path e) :
    (loadFile tree path).outcome = .error e := by
  cases h with
  | nullCharacter h =>
    by_cases hpath : path.holdsNull = true
    · rw [loadFile, if_pos hpath]
      rfl
    · have hread : tree.readText (tree.resolve path) = .error (.file .nullCharacter) :=
        FileTree.readText_of_holdsNull (h.resolve_left hpath)
      rw [loadFile_outcome (Bool.eq_false_iff.mpr hpath), readFile, hread]
  | encoding hpath hread => rw [loadFile_outcome hpath, readFile, hread]
  | scalar htext hread => rw [htext.outcome, decode, hread]
  | @hidden v hvalue hshown =>
    rw [hvalue.outcome]
    exact withReachableReferences_of_error (define_of_not_isShowable hshown _)
  | endless hvalue hdefines hshown hendless =>
    rw [hvalue.outcome, textToWorkflow_of_defines hshown hdefines, hendless]

/-- What escapes is no problem of the definition. -/
theorem Escapes.ne_invalid {e : LoadError} (h : Escapes tree path e) (problems : List Problem) :
    e ≠ .invalid problems := by
  cases h with
  | endless _ _ _ hendless =>
    obtain ⟨step, -, hstep⟩ := List.exists_of_findSome?_eq_some hendless
    exact endless?_ne_invalid hstep problems
  | _ => exact nofun

/-- A file is refused for some reason. -/
theorem Refused.ne_nil {problems : List Problem} (h : Refused tree path problems) :
    problems ≠ [] := by
  cases h with
  | noFile => exact List.cons_ne_nil _ _
  | unreadable => exact List.cons_ne_nil _ _
  | @undefined v problems _ hshown hnone hproblems =>
    obtain ⟨problems', hne, hproblems'⟩ := toWorkflow_invalid_iff.mpr ⟨hnone, hshown⟩
    obtain rfl := LoadError.invalid.inj (Except.error.inj (hproblems.symm.trans hproblems'))
    exact hne

/-- What comes of a value that was read from a file. -/
theorem HoldsValue.cases {v : Value} (h : HoldsValue tree path v) :
    (∃ w, Yields tree path w) ∨ (∃ problems, Refused tree path problems) ∨
      ∃ e, Escapes tree path e := by
  rcases textToWorkflow_outcome v none with
    ⟨hshown, w, hdefines, -⟩ | ⟨hshown, hnone, problems, hproblems, -⟩ | ⟨hhidden, -⟩
  · cases hends : w.steps.findSome? Loading.endless? with
    | none => exact .inl ⟨_, .mk h hdefines hshown hends⟩
    | some e => exact .inr (.inr ⟨e, .endless h hdefines hshown hends⟩)
  · exact .inr (.inl ⟨problems, .undefined h hshown hnone hproblems⟩)
  · exact .inr (.inr ⟨_, .hidden h hhidden⟩)

/-- Every file yields a workflow, or it is refused, or something escapes. -/
theorem loadFile_cases (tree : FileTree) (path : Path) :
    (∃ w, Yields tree path w) ∨ (∃ problems, Refused tree path problems) ∨
      ∃ e, Escapes tree path e := by
  cases hpath : path.holdsNull with
  | true => exact .inr (.inr ⟨_, .nullCharacter (.inl hpath)⟩)
  | false =>
    cases htext : tree.readText (tree.resolve path) with
    | error fault =>
      cases fault with
      | encoding fault => exact .inr (.inr ⟨_, .encoding hpath htext⟩)
      | file e =>
        by_cases hnull : e = .nullCharacter
        · rw [hnull] at htext
          exact .inr (.inr ⟨_, .nullCharacter (.inr (FileTree.holdsNull_of_readText htext))⟩)
        · exact .inr (.inl ⟨_, .noFile hpath hnull htext⟩)
    | ok text =>
      have hholds : HoldsText tree path text := ⟨hpath, htext⟩
      cases hread : read text with
      | ok v => exact HoldsValue.cases ⟨hholds, hread⟩
      | error e =>
        cases e with
        | unreadable json => exact .inr (.inl ⟨_, .unreadable hholds hread⟩)
        | scalar fault => exact .inr (.inr ⟨_, .scalar hholds hread⟩)

/-- The workflow that is loaded is the one that the file yields. -/
theorem loadFile_eq_ok_iff {w : Workflow} :
    (loadFile tree path).outcome = .ok w ↔ Yields tree path w := by
  refine ⟨fun h => ?_, Yields.outcome⟩
  rcases loadFile_cases tree path with ⟨w', hyields⟩ | ⟨problems, hrefused⟩ | ⟨e, hescapes⟩
  · obtain rfl := Except.ok.inj (h.symm.trans hyields.outcome)
    exact hyields
  · cases h.symm.trans hrefused.outcome
  · cases h.symm.trans hescapes.outcome

/-- The problems that are reported are those for which the file is refused. -/
theorem loadFile_invalid_iff {problems : List Problem} :
    (loadFile tree path).outcome = .error (.invalid problems) ↔ Refused tree path problems := by
  refine ⟨fun h => ?_, Refused.outcome⟩
  rcases loadFile_cases tree path with ⟨w, hyields⟩ | ⟨problems', hrefused⟩ | ⟨e, hescapes⟩
  · cases h.symm.trans hyields.outcome
  · obtain rfl := LoadError.invalid.inj (Except.error.inj (h.symm.trans hrefused.outcome))
    exact hrefused
  · exact absurd (Except.error.inj (hescapes.outcome.symm.trans h)) (hescapes.ne_invalid problems)

/-- Any other error is one that escapes. -/
theorem loadFile_eq_error_iff {e : LoadError} (he : ∀ problems, e ≠ .invalid problems) :
    (loadFile tree path).outcome = .error e ↔ Escapes tree path e := by
  refine ⟨fun h => ?_, Escapes.outcome⟩
  rcases loadFile_cases tree path with ⟨w, hyields⟩ | ⟨problems, hrefused⟩ | ⟨e', hescapes⟩
  · cases h.symm.trans hyields.outcome
  · exact absurd (Except.error.inj (h.symm.trans hrefused.outcome)) (he problems)
  · obtain rfl := Except.error.inj (h.symm.trans hescapes.outcome)
    exact hescapes

end Loading

/-- Whatever a loader was used for before, it loads just the workflow that a file yields, and it
reports just the problems for which the file is refused; those are some. An error of another kind
comes of loading just if it escapes, and so loading comes to a workflow or to problems just if
nothing escapes. -/
theorem loadFile_reports (loader : Loader) (tree : FileTree) (path : Path) :
    (∀ w, (loader.loadFile tree path).2.outcome = .ok w ↔ Yields tree path w) ∧
      (∀ problems, (loader.loadFile tree path).2.outcome = .error (.invalid problems) ↔
        Refused tree path problems) ∧
      (∀ problems, Refused tree path problems → problems ≠ []) ∧
      (∀ e, (∀ problems, e ≠ .invalid problems) →
        ((loader.loadFile tree path).2.outcome = .error e ↔ Escapes tree path e)) ∧
      (((∃ w, (loader.loadFile tree path).2.outcome = .ok w) ∨
          ∃ problems, (loader.loadFile tree path).2.outcome = .error (.invalid problems)) ↔
        ∀ e, ¬Escapes tree path e) := by
  have hloads : (loader.loadFile tree path).2.outcome = (loadFile tree path).outcome := rfl
  rw [hloads]
  refine ⟨fun w => loadFile_eq_ok_iff, fun problems => loadFile_invalid_iff,
    fun problems => Refused.ne_nil, fun e => loadFile_eq_error_iff, ?_, fun hnone => ?_⟩
  · rintro (⟨w, h⟩ | ⟨problems, h⟩) e hescapes
    · cases h.symm.trans hescapes.outcome
    · exact hescapes.ne_invalid problems (Except.error.inj (hescapes.outcome.symm.trans h))
  · rcases loadFile_cases tree path with ⟨w, hyields⟩ | ⟨problems, hrefused⟩ | ⟨e, hescapes⟩
    · exact .inl ⟨w, hyields.outcome⟩
    · exact .inr ⟨problems, hrefused.outcome⟩
    · exact absurd hescapes (hnone e)

/-- A file with one octet that begins no character. -/
def octetTree : FileTree :=
  { nodes := [([], .directory), (["flow"], .file [0xFF])], current := [] }

/-- The octet escapes where a missing file is refused, whatever the loader found before. -/
theorem loadFile_reports_octet :
    Escapes octetTree (Path.ofText "/flow") (.encoding ⟨0xFF, 0, 1, .invalidStart⟩) ∧
      (¬∃ problems, ((⟨[⟨"old", "", 2⟩]⟩ : Loader).loadFile octetTree
        (Path.ofText "/flow")).2.outcome = .error (.invalid problems)) ∧
      Refused octetTree (Path.ofText "/none")
        [⟨"Failed to load workflow: [Errno 2] No such file or directory: '/none'", "", 2⟩] := by
  obtain ⟨-, -, -, hescapes, hreported⟩ :=
    loadFile_reports ⟨[⟨"old", "", 2⟩]⟩ octetTree (Path.ofText "/flow")
  obtain ⟨-, hrefused, -⟩ := loadFile_reports {} octetTree (Path.ofText "/none")
  have hoctet := (hescapes (.encoding ⟨0xFF, 0, 1, .invalidStart⟩) nofun).mp rfl
  refine ⟨hoctet, fun hproblems => ?_, (hrefused _).mp rfl⟩
  exact hreported.mp (.inr hproblems) _ hoctet

end Document

end Runbook
