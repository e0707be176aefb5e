import Runbook.CommandLine.Perform
import Runbook.Proofs.Document.File
import Runbook.Proofs.FileTree.Change
import Runbook.Proofs.Path.Collapse

/-!
# What a command finds at the path of its document

Every command begins by opening the document that it is told of. There may be nothing at the path,
or something that makes no workflow, or a workflow; and some things come in between that are no
matter of the definition, such as octets that are no text or an integer of too many digits.

The module introduces:

* `CommandLine.Opening`: what is found;
* `CommandLine.Opens`: what is found at the path of a name, in terms of the files, of the values
  that texts denote and of the workflows that values define;
* `CommandLine.opening`: what the commands take to be there.

The main results are `CommandLine.opens_iff`, by which these agree, and
`CommandLine.withDocument_resume`, which says how every command goes on.
-/

namespace Runbook

namespace CommandLine

/-! ## What is found -/

/-- What a command finds at the path of its document. -/
inductive Opening where
  /-- Nothing is there. -/
  | absent
  /-- What is there makes no workflow. -/
  | faulty
  /-- Something comes in between that is no matter of the definition. -/
  | trouble (t : Trouble)
  /-- A workflow. -/
  | loaded (w : Workflow)

/-- What is found in a text that was read from a path. -/
inductive Means (path : Path) (text : String) : Opening → Prop
  /-- The text is neither JSON nor YAML. -/
  | unreadable {json : Json.Error} (hread : Document.read text = .error (.unreadable json)) :
      Means path text .faulty
  /-- A scalar denotes no value of its type. -/
  | scalar {fault : Yaml.Fault} (hread : Document.read text = .error (.scalar fault)) :
      Means path text (.trouble (.load (.scalar fault)))
  /-- A key that is to be shown in a message holds an integer of too many digits. -/
  | hidden {v : Value} {fault : Number.IntegerFault} (hread : Document.read text = .ok v)
      (hshown : Document.isShowable v = false)
      (hfault : (Document.textToWorkflow v (some path)).outcome = .error (.integer fault)) :
      Means path text (.trouble (.load (.integer fault)))
  /-- The value of the text defines no workflow. -/
  | undefined {v : Value} (hread : Document.read text = .ok v)
      (hshown : Document.isShowable v = true) (hnone : ∀ w, ¬Document.Defines v w) :
      Means path text .faulty
  /-- The parameters of a step have no end. -/
  | endless {v : Value} {w : Workflow} {e : Document.LoadError} (hread : Document.read text = .ok v)
      (hshown : Document.isShowable v = true) (hdefines : Document.Defines v w)
      (hendless : w.steps.findSome? Document.Loading.endless? = some e) :
      Means path text (.trouble (.load e))
  /-- The value of the text defines a workflow. -/
  | workflow {v : Value} {w : Workflow} (hread : Document.read text = .ok v)
      (hshown : Document.isShowable v = true) (hdefines : Document.Defines v w)
      (hends : w.steps.findSome? Document.Loading.endless? = none) :
      Means path text (.loaded { w with sourcePath := some path })

/-- The path of the document of a name. -/
def documentPath (tree : FileTree) (name : String) : Path :=
  tree.resolve (Path.ofText name)

/-- What is found at the path of a name. -/
inductive Opens (tree : FileTree) (name : String) : Opening → Prop
  /-- The path holds the null character. -/
  | nullCharacter (hnull : (Path.ofText name).holdsNull = true) :
      Opens tree name (.trouble (.file .nullCharacter))
  /-- The system refuses to look for the path. -/
  | refused {e : FileTree.Error} (hnull : (Path.ofText name).holdsNull = false)
      (hpresent : tree.present (documentPath tree name) = .error e) :
      Opens tree name (.trouble (.file e))
  /-- Nothing is there. -/
  | absent (hnull : (Path.ofText name).holdsNull = false)
      (hpresent : tree.present (documentPath tree name) = .ok false) : Opens tree name .absent
  /-- What is there is no file. -/
  | noFile {e : FileTree.Error} (hnull : (Path.ofText name).holdsNull = false)
      (hpresent : tree.present (documentPath tree name) = .ok true)
      (hread : tree.readText (documentPath tree name) = .error (.file e)) :
      Opens tree name .faulty
  /-- The octets of the file are no text. -/
  | noText {fault : Text.Utf8.Fault} (hnull : (Path.ofText name).holdsNull = false)
      (hread : tree.readText (documentPath tree name) = .error (.encoding fault)) :
      Opens tree name (.trouble (.load (.encoding fault)))
  /-- The file holds a text. -/
  | text {text : String} {found : Opening} (hnull : (Path.ofText name).holdsNull = false)
      (hread : tree.readText (documentPath tree name) = .ok text)
      (hmeans : Means (documentPath tree name) text found) : Opens tree name found

/-- What comes of loading, as something that is found. -/
def Opening.ofLoading : Except Document.LoadError Workflow → Opening
  | .ok w => .loaded w
  | .error (.invalid _) => .faulty
  | .error e => .trouble (.load e)

/-- What the commands take to be at the path of a name. -/
def opening (tree : FileTree) (name : String) : Opening :=
  if (Path.ofText name).holdsNull then .trouble (.file .nullCharacter)
  else
    match tree.present (documentPath tree name) with
    | .error e => .trouble (.file e)
    | .ok false => .absent
    | .ok true => .ofLoading (Document.loadFile tree (documentPath tree name)).outcome

/-- An error that is no problem of the definition comes in between. -/
theorem ofLoading_error {e : Document.LoadError} (h : ∀ problems, e ≠ .invalid problems) :
    Opening.ofLoading (.error e) = .trouble (.load e) := by
  cases e with
  | invalid problems => exact absurd rfl (h problems)
  | _ => rfl

/-! ## Texts -/

section Means

variable {path : Path} {text : String} {found : Opening}

/-- What the commands take a text to mean. -/
def meaning (path : Path) (text : String) : Opening :=
  match Document.decode text (some path) with
  | .error e => .ofLoading (.error e)
  | .ok v => .ofLoading (Document.textToWorkflow v (some path)).outcome

theorem means_meaning (path : Path) (text : String) : Means path text (meaning path text) := by
  unfold meaning Document.decode
  cases hread : Document.read text with
  | error e =>
    cases e with
    | unreadable json => exact .unreadable hread
    | scalar fault => exact .scalar hread
  | ok v =>
    change Means path text (.ofLoading (Document.textToWorkflow v (some path)).outcome)
    rcases Document.textToWorkflow_outcome v (some path) with
      ⟨hshown, w, hw, h⟩ | ⟨hshown, hnone, problems, -, h⟩ | ⟨hshown, h⟩
    · rw [h]
      cases hends : w.steps.findSome? Document.Loading.endless? with
      | none => exact .workflow hread hshown hw hends
      | some e =>
        obtain ⟨step, -, hstep⟩ := List.exists_of_findSome?_eq_some hends
        rw [ofLoading_error (Document.endless?_ne_invalid hstep)]
        exact .endless hread hshown hw hends
    · rw [h]
      exact .undefined hread hshown hnone
    · rw [h]
      exact .hidden hread hshown h

/-- A text means what the commands take it to mean. -/
theorem means_iff : Means path text found ↔ meaning path text = found := by
  refine ⟨fun h => ?_, fun h => h ▸ means_meaning path text⟩
  have hvalue {v : Value} (hread : Document.read text = .ok v) :
      meaning path text = .ofLoading (Document.textToWorkflow v (some path)).outcome := by
    rw [meaning, Document.decode, hread]
  -- There is one case for each way in which a text can mean something.
  cases h with
  | unreadable hread => rw [meaning, Document.decode, hread]; rfl
  | scalar hread => rw [meaning, Document.decode, hread]; rfl
  | hidden hread _ hfault => rw [hvalue hread, hfault]; rfl
  | undefined hread hshown hnone =>
    rw [hvalue hread]
    rcases Document.textToWorkflow_outcome _ (some path) with
      ⟨-, w, hw, -⟩ | ⟨-, -, problems, -, houtcome⟩ | ⟨hhidden, -⟩
    · exact absurd hw (hnone w)
    · rw [houtcome]; rfl
    · cases hshown.symm.trans hhidden
  | endless hread hshown hdefines hendless =>
    rw [hvalue hread, Document.textToWorkflow_of_defines hshown hdefines, hendless]
    obtain ⟨step, -, hstep⟩ := List.exists_of_findSome?_eq_some hendless
    exact ofLoading_error (Document.endless?_ne_invalid hstep)
  | workflow hread hshown hdefines hends =>
    rw [hvalue hread, Document.textToWorkflow_of_defines hshown hdefines, hends]
    rfl

end Means

/-! ## Files -/

section Files

variable {tree : FileTree} {path : Path} {name : String} {found : Opening}

/-- Where a file was read, something is. -/
theorem present_of_readText (h : ∀ e, tree.readText path ≠ .error (.file e)) :
    tree.present path = .ok true := by
  unfold FileTree.readText FileTree.read at h
  unfold FileTree.present
  by_cases hnull : path.holdsNull = true
  · rw [if_pos hnull] at h
    exact absurd rfl (h .nullCharacter)
  · rw [if_neg hnull] at h ⊢
    cases hlookup : tree.lookup path with
    | error errno =>
      rw [hlookup] at h
      exact absurd rfl (h (.refused errno path))
    | ok node => rfl

/-- What the commands take something to be that is at the path of a name. -/
theorem opening_of_present (hname : (Path.ofText name).holdsNull = false)
    (hpresent : tree.present (documentPath tree name) = .ok true) :
    opening tree name =
      match tree.readText (documentPath tree name) with
      | .error (.file _) => .faulty
      | .error (.encoding fault) => .trouble (.load (.encoding fault))
      | .ok text => meaning (documentPath tree name) text := by
  have hnull : ¬(documentPath tree name).holdsNull = true := fun hnull => by
    rw [FileTree.present, if_pos hnull] at hpresent
    cases hpresent
  have hresolve : tree.resolve (documentPath tree name) = documentPath tree name :=
    Path.resolve_resolve _ _
  unfold opening Document.loadFile Document.readFile
  rw [if_neg (Bool.eq_false_iff.mp hname), hpresent, if_neg hnull, hresolve]
  dsimp only
  cases hread : tree.readText (documentPath tree name) with
  | error fault =>
    rcases fault with (e | _) | fault
    · rfl
    -- The path holds no null character, and so none is in the way of reading.
    · exact absurd (FileTree.holdsNull_of_readText hread) hnull
    · rfl
  | ok text =>
    dsimp only
    unfold meaning
    cases Document.decode text (some (documentPath tree name)) with
    | error e => rfl
    | ok v => rfl

/-- What is found at the path of a name is what the commands take to be there. -/
theorem opens_iff : Opens tree name found ↔ opening tree name = found := by
  constructor
  · intro h
    cases h with
    | nullCharacter hnull => rw [opening, if_pos hnull]
    | refused hnull hpresent =>
      rw [opening, if_neg (Bool.eq_false_iff.mp hnull), hpresent]
    | absent hnull hpresent =>
      rw [opening, if_neg (Bool.eq_false_iff.mp hnull), hpresent]
    | noFile hnull hpresent hread => rw [opening_of_present hnull hpresent, hread]
    | noText hnull hread =>
      -- That something is there follows from its having been read.
      have hpresent := present_of_readText fun e he => nomatch hread.symm.trans he
      rw [opening_of_present hnull hpresent, hread]
    | text hnull hread hmeans =>
      have hpresent := present_of_readText fun e he => nomatch hread.symm.trans he
      rw [opening_of_present hnull hpresent, hread]
      exact means_iff.mp hmeans
  · rintro rfl
    by_cases hname : (Path.ofText name).holdsNull = true
    · rw [opening, if_pos hname]
      exact .nullCharacter hname
    · have hnull := Bool.eq_false_iff.mpr hname
      cases hpresent : tree.present (documentPath tree name) with
      | error e =>
        rw [opening, if_neg hname, hpresent]
        exact .refused hnull hpresent
      | ok there =>
        cases there with
        | false =>
          rw [opening, if_neg hname, hpresent]
          exact .absent hnull hpresent
        | true =>
          rw [opening_of_present hnull hpresent]
          cases hread : tree.readText (documentPath tree name) with
          | error fault =>
            cases fault with
            | file e => exact .noFile hnull hpresent hread
            | encoding fault => exact .noText hnull hread
          | ok text => exact .text hnull hread (means_meaning _ text)

end Files

/-! ## How commands go on -/

section Resume

variable {σ : Type} {o : Outcome σ}

@[simp]
theorem Outcome.report_nil (o : Outcome σ) : o.report [] = o := by
  rw [report, List.append_nil]

@[simp]
theorem Outcome.report_report (o : Outcome σ) (first second : Log) :
    (o.report first).report second = o.report (first ++ second) := by
  simp only [report, List.append_assoc]

/-- What comes of a command that leaves the files and the world alone. -/
structure Outcome.Idle (o : Outcome σ) (tree : FileTree) (world : σ) : Prop where
  /-- The files are as they were. -/
  tree : o.tree = tree
  /-- The world is as it was. -/
  world : o.world = world
  /-- No operation is called. -/
  calls : o.calls = []

/-- How a command goes on with what is found: `refuse` says what is done about trouble, and `next`
what is done with a workflow. -/
def Opening.resume (found : Opening) (refuse : Outcome σ → Trouble → Outcome σ)
    (next : Outcome σ → Workflow → Outcome σ) (o : Outcome σ) : Outcome σ :=
  match found with
  | .absent => o.exit 1
  | .faulty => o.exit Problem.combinedExitCode
  | .trouble t => refuse o t
  | .loaded w => next o w

/-- A document that is loaded is gone on with. -/
theorem withWorkflow_resume (o : Outcome σ) (refuse : Outcome σ → Trouble → Outcome σ)
    (path : Path) (next : Outcome σ → Workflow → Outcome σ) :
    ∃ log, withWorkflow o refuse path next =
      (Opening.ofLoading (Document.loadFile o.tree path).outcome).resume refuse next
        (o.report log) := by
  unfold withWorkflow
  dsimp only
  cases (Document.loadFile o.tree path).outcome with
  | ok w => exact ⟨_, rfl⟩
  | error e =>
    cases e with
    | invalid problems => exact ⟨_, congrArg (Outcome.exit · _) (Outcome.report_report o _ _)⟩
    | _ => exact ⟨_, rfl⟩

/-- A command goes on with what is found at the path of its document; `note` is what it logs before
it opens the document. -/
theorem withDocument_resume (o : Outcome σ) (refuse : Outcome σ → Trouble → Outcome σ)
    (name : String) (note : Path → Log) (next : Outcome σ → Workflow → Outcome σ) :
    ∃ log, withDocument o refuse name
        (fun o path => withWorkflow (o.report (note path)) refuse path next) =
      (opening o.tree name).resume refuse next (o.report log) := by
  unfold withDocument opening documentPath
  dsimp only
  split
  case isTrue => exact ⟨[], by rw [Outcome.report_nil]; rfl⟩
  case isFalse =>
    cases o.tree.present (o.tree.resolve (Path.ofText name)) with
    | error e => exact ⟨[], by rw [Outcome.report_nil]; rfl⟩
    | ok there =>
      cases there with
      | false => exact ⟨_, rfl⟩
      | true =>
        obtain ⟨log, hlog⟩ := withWorkflow_resume
          (o.report (note (o.tree.resolve (Path.ofText name)))) refuse
          (o.tree.resolve (Path.ofText name)) next
        exact ⟨_, hlog.trans (congrArg _ (Outcome.report_report o _ _))⟩

end Resume

end CommandLine

end Runbook
