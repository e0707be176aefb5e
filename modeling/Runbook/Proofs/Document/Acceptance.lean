import Mathlib.Data.List.TakeDrop
import Runbook.Proofs.Document.ForwardReferences
import Runbook.Proofs.Document.Meaning

/-!
# Which documents make workflows

A loader accepts just the documents that say a workflow, and makes that workflow of them; with every
other document it reports problems. One thing comes in between: keys are shown in messages and
warnings, and an integer of too many digits among them ends the loading, whatever the document says.
The keys of JSON documents are texts, and so nothing comes in between there.

The module introduces `Document.isShowable`: whether the keys can be shown that messages and
warnings may show. The main results are `Document.loadDocument_accepts_exactly` and, for JSON
documents, `Document.loadDocument_ofDocument`.
-/

namespace Runbook.Document

/-! ## What a loader does -/

/-- Nothing is reported just if nothing was found, in the documents or in the workflow. -/
theorem withFurther_eq_nil_iff {problems further : List Problem} :
    withFurther problems further = [] ↔ problems = [] ∧ further = [] := by
  refine ⟨withFurther_eq_nil, ?_⟩
  rintro ⟨rfl, rfl⟩
  rfl

/-- What a loader was used for before does not matter. -/
theorem loadDocument_outcome (loader : Loader) (document : Value) :
    (loader.loadDocument document).2.outcome = (toWorkflow document none).outcome :=
  rfl

/-- Looking for placeholders does not change what is loaded. -/
theorem withReferences_outcome (l : Loading) : l.withReferences.outcome = l.outcome := by
  unfold Loading.withReferences
  split <;> rfl

theorem withReferences_problems (l : Loading) : l.withReferences.problems = l.problems := by
  unfold Loading.withReferences
  split <;> rfl

/-- What is made of a document is what is loaded. -/
theorem toWorkflow_eq_define (document : Value) (path : Option Path) :
    (toWorkflow document path).outcome = (define document path).outcome :=
  withReferences_outcome _

/-- Whether the keys of a document can be shown that messages and warnings may show. -/
def isShowable : Value → Bool
  | .map entries =>
    match field entries stepsField with
    | .list [] => true
    | .list documents => keysShown entries && documents.all stepShown
    | _ => true
  | _ => true

section Outcome

variable {entries : Entries} {documents : List Value} (path : Option Path)

/-- Where keys can be shown, what is found in the documents and in the workflow of their steps
decides what is loaded. -/
theorem workflowOf_of_shown (h : (keysShown entries && documents.all stepShown) = true) :
    workflowOf path entries documents =
      match withFurther (problemsFrom 0 documents)
        (⟨stepsFrom 0 documents, path⟩ : Workflow).problems with
      | [] => ⟨(findSteps entries documents).log, [], .ok ⟨stepsFrom 0 documents, path⟩⟩
      | problems => .refused (findSteps entries documents).log problems := by
  have hfound := findSteps_gives entries documents
  rw [workflowOf]
  generalize findSteps entries documents = found at hfound
  obtain ⟨problems, log, outcome⟩ := found
  obtain rfl : problems = problemsFrom 0 documents := hfound.problems h
  obtain rfl : outcome = .ok (stepsFrom 0 documents) := hfound.outcome h
  rfl

/-- A key that cannot be shown ends the loading. -/
theorem workflowOf_of_not_shown (h : (keysShown entries && documents.all stepShown) = false) :
    (workflowOf path entries documents).outcome = .error (.integer .tooLongToWrite) := by
  unfold workflowOf
  simp only [(findSteps_gives entries documents).ends h]

end Outcome

/-- A document with a list of steps, of which there are some, is searched. -/
theorem toWorkflow_of_list {entries : Entries} {documents : List Value}
    (hdocuments : field entries stepsField = .list documents) (hne : documents ≠ [])
    (path : Option Path) :
    toWorkflow (.map entries) path = (workflowOf path entries documents).withReferences := by
  obtain ⟨v, documents, rfl⟩ := List.exists_cons_of_ne_nil hne
  rw [toWorkflow, define, hdocuments]
  rfl

theorem isShowable_of_list {entries : Entries} {documents : List Value}
    (hdocuments : field entries stepsField = .list documents) (hne : documents ≠ []) :
    isShowable (.map entries) = (keysShown entries && documents.all stepShown) := by
  obtain ⟨v, documents, rfl⟩ := List.exists_cons_of_ne_nil hne
  rw [isShowable, hdocuments]

/-- A map without such a list says no workflow, and it is refused outright. -/
theorem toWorkflow_of_not_list {entries : Entries}
    (hdocuments : ∀ documents, field entries stepsField = .list documents → documents = [])
    (path : Option Path) :
    (∀ w, ¬Defines (.map entries) w) ∧ isShowable (.map entries) = true ∧
      ∃ problem, (toWorkflow (.map entries) path).outcome = .error (.invalid [problem]) := by
  refine ⟨?_, ?_, ?_⟩
  · intro w hw
    cases hw with
    | workflow hlist hne _ _ => exact hne (hdocuments _ hlist)
  · rw [isShowable]
    cases hsteps : field entries stepsField with
    | list documents =>
      rw [hdocuments documents hsteps]
    | _ => rfl
  · rw [toWorkflow, withReferences_outcome, define]
    cases hsteps : field entries stepsField with
    | list documents =>
      rw [hdocuments documents hsteps]
      exact ⟨_, rfl⟩
    | _ =>
      dsimp only
      split
      · exact ⟨_, rfl⟩
      · exact ⟨_, rfl⟩

/-- Any other document is refused outright. -/
theorem toWorkflow_cases (document : Value) (path : Option Path) :
    (∃ entries documents, document = .map entries ∧ field entries stepsField = .list documents ∧
      documents ≠ []) ∨
    (∀ w, ¬Defines document w) ∧ isShowable document = true ∧
      ∃ problem, (toWorkflow document path).outcome = .error (.invalid [problem]) := by
  cases document with
  | map entries =>
    by_cases hdocuments : ∃ documents, field entries stepsField = .list documents ∧ documents ≠ []
    · obtain ⟨documents, hlist, hne⟩ := hdocuments
      exact .inl ⟨entries, documents, rfl, hlist, hne⟩
    · refine .inr (toWorkflow_of_not_list (fun documents hlist => ?_) path)
      by_contra hne
      exact hdocuments ⟨documents, hlist, hne⟩
  | _ =>
    refine .inr ⟨?_, rfl, _, rfl⟩
    rintro w ⟨⟩

/-- What comes of a document: where its keys can be shown, the workflow that it says, or else
problems. -/
theorem toWorkflow_outcome (document : Value) :
    (isShowable document = true ∧ ∃ w, Defines document w ∧
      (toWorkflow document none).outcome = .ok w) ∨
    (isShowable document = true ∧ (∀ w, ¬Defines document w) ∧ ∃ problems, problems ≠ [] ∧
      (toWorkflow document none).outcome = .error (.invalid problems)) ∨
    (isShowable document = false ∧ ∃ fault,
      (toWorkflow document none).outcome = .error (.integer fault)) := by
  rcases toWorkflow_cases document none with
    ⟨entries, documents, rfl, hdocuments, hne⟩ | ⟨hnone, hshown, problem, houtcome⟩
  · rw [toWorkflow_of_list hdocuments hne, withReferences_outcome,
      isShowable_of_list hdocuments hne]
    cases hkeys : keysShown entries && documents.all stepShown with
    | false => exact .inr (.inr ⟨rfl, _, workflowOf_of_not_shown none hkeys⟩)
    | true =>
      rw [workflowOf_of_shown none hkeys]
      cases hproblems : withFurther (problemsFrom 0 documents)
          (⟨stepsFrom 0 documents, none⟩ : Workflow).problems with
      | nil =>
        obtain ⟨hfound, hfurther⟩ := withFurther_eq_nil_iff.mp hproblems
        have hsaid := (forall₂_says_iff 0).mpr ⟨hfound, rfl⟩
        have hnames := ((problems_of_said none hsaid).mp hfurther).2
        exact .inl ⟨rfl, _, .workflow hdocuments hne hsaid hnames, rfl⟩
      | cons problem problems =>
        -- A workflow that is said would leave nothing to report.
        refine .inr (.inl ⟨rfl, ?_, problem :: problems, List.cons_ne_nil _ _, rfl⟩)
        rintro w ⟨hdocuments', -, hsaid, hnames⟩
        obtain rfl := Value.list.inj (hdocuments.symm.trans hdocuments')
        obtain ⟨hfound, rfl⟩ := (forall₂_says_iff 0).mp hsaid
        have hfurther := (problems_of_said none hsaid).mpr ⟨hne, hnames⟩
        cases hproblems.symm.trans (withFurther_eq_nil_iff.mpr ⟨hfound, hfurther⟩)
  · exact .inr (.inl ⟨hshown, hnone, [problem], List.cons_ne_nil _ _, houtcome⟩)

/-- The workflow that is loaded, where one is. -/
theorem toWorkflow_eq_ok_iff {document : Value} {w : Workflow} :
    (toWorkflow document none).outcome = .ok w ↔
      Defines document w ∧ isShowable document = true := by
  rcases toWorkflow_outcome document with
    ⟨hshown, w', hdefines, houtcome⟩ | ⟨-, hnone, problems, -, houtcome⟩ | ⟨hshown, fault, houtcome⟩
  · rw [houtcome]
    constructor
    · rintro ⟨rfl⟩
      exact ⟨hdefines, hshown⟩
    · rintro ⟨hdefines', -⟩
      rw [hdefines.unique hdefines']
  · rw [houtcome]
    exact iff_of_false nofun fun h => hnone w h.1
  · rw [houtcome]
    exact iff_of_false nofun fun h => Bool.false_ne_true (hshown.symm.trans h.2)

/-- Problems are reported of documents that say no workflow. -/
theorem toWorkflow_invalid_iff {document : Value} :
    (∃ problems, problems ≠ [] ∧ (toWorkflow document none).outcome = .error (.invalid problems)) ↔
      (∀ w, ¬Defines document w) ∧ isShowable document = true := by
  rcases toWorkflow_outcome document with
    ⟨-, w, hdefines, houtcome⟩ | ⟨hshown, hnone, problems, hne, houtcome⟩ | ⟨hshown, fault, houtcome⟩
  · rw [houtcome]
    exact iff_of_false nofun fun h => h.1 w hdefines
  · exact iff_of_true ⟨problems, hne, houtcome⟩ ⟨hnone, hshown⟩
  · rw [houtcome]
    exact iff_of_false nofun fun h => Bool.false_ne_true (hshown.symm.trans h.2)

/-- Loading ends at a key that cannot be shown. -/
theorem toWorkflow_integer_iff {document : Value} :
    (∃ fault, (toWorkflow document none).outcome = .error (.integer fault)) ↔
      isShowable document = false := by
  rcases toWorkflow_outcome document with
    ⟨hshown, w, -, houtcome⟩ | ⟨hshown, -, problems, -, houtcome⟩ | ⟨hshown, fault, houtcome⟩
  · rw [houtcome, hshown]
    exact iff_of_false nofun nofun
  · rw [houtcome, hshown]
    exact iff_of_false nofun nofun
  · exact iff_of_true ⟨fault, houtcome⟩ hshown

/-- The first step whose parameters have no end leads to an error. -/
theorem endless_of_span (steps : List Step) :
    (steps.span fun step => (Loading.endless? step).isNone).2.head?.bind Loading.endless? =
      steps.findSome? Loading.endless? := by
  rw [List.span_eq_takeWhile_dropWhile]
  induction steps with
  | nil => rfl
  | cons step steps ih =>
    cases hstep : Loading.endless? step with
    | none => simpa [hstep] using ih
    | some e => simp [hstep]

/-- A loaded workflow stays unless the parameters of a step have no end. -/
theorem withReachableReferences_of_ok {l : Loading} {w : Workflow} (h : l.outcome = .ok w) :
    l.withReachableReferences.outcome =
      match w.steps.findSome? Loading.endless? with
      | none => .ok w
      | some e => .error e := by
  unfold Loading.withReachableReferences
  simp only [h, endless_of_span]
  cases w.steps.findSome? Loading.endless? with
  | none => exact (withReferences_outcome l).trans h
  | some e => rfl

/-- Errors stay. -/
theorem withReachableReferences_of_error {l : Loading} {e : LoadError} (h : l.outcome = .error e) :
    l.withReachableReferences.outcome = .error e := by
  unfold Loading.withReachableReferences
  simp only [h]

/-- A loader makes of a document just the workflow that the document says, whatever it was used for
before, and it reports problems just if the document says none; a workflow that is loaded has no
problems. This is so unless a key that is to be shown holds an integer of too many digits: the
loading then ends with that error. A document from a text may hold parameters without an end, and
then it is the first step with such that ends the loading. -/
theorem loadDocument_accepts_exactly (loader : Loader) (document : Value) :
    (∀ w, (loader.loadDocument document).2.outcome = .ok w ↔
        Defines document w ∧ isShowable document = true) ∧
      ((∃ problems, problems ≠ [] ∧
          (loader.loadDocument document).2.outcome = .error (.invalid problems)) ↔
        (∀ w, ¬Defines document w) ∧ isShowable document = true) ∧
      ((∃ fault, (loader.loadDocument document).2.outcome = .error (.integer fault)) ↔
        isShowable document = false) ∧
      (∀ w, (loader.loadDocument document).2.outcome = .ok w → w.problems = []) ∧
      (∀ w, (loader.loadDocument document).2.outcome = .ok w →
        (textToWorkflow document none).outcome =
          match w.steps.findSome? Loading.endless? with
          | none => .ok w
          | some e => .error e) ∧
      (∀ e, (loader.loadDocument document).2.outcome = .error e →
        (textToWorkflow document none).outcome = .error e) := by
  have hdefined : (toWorkflow document none).outcome = (define document none).outcome :=
    withReferences_outcome _
  rw [loadDocument_outcome]
  refine ⟨fun w => toWorkflow_eq_ok_iff, toWorkflow_invalid_iff, toWorkflow_integer_iff,
    fun w hw => ?_, fun w hw => ?_, fun e he => ?_⟩
  · exact (toWorkflow_eq_ok_iff.mp hw).1.problems_eq_nil
  · exact withReachableReferences_of_ok (hdefined.symm.trans hw)
  · exact withReachableReferences_of_error (hdefined.symm.trans he)

/-- A document that says a workflow of one step, beside a key that is an integer. -/
def numberedDocument (n : Int) : Value :=
  .map [(.integer n, .bool true),
    (.text "Steps", .list [.map [(.text "Name", .text "Only"), (.text "Type", .text "echo")]])]

/-- The workflow is loaded just if the integer can be shown. -/
theorem numberedDocument_loaded_iff (loader : Loader) (n : Int) :
    (∃ w, Defines (numberedDocument n) w) ∧
      ((∃ w, (loader.loadDocument (numberedDocument n)).2.outcome = .ok w) ↔
        Number.isTooLong n = false) := by
  have hdefines : Defines (numberedDocument n) ⟨[{ name := "Only", type := "echo" }], none⟩ :=
    .workflow rfl (List.cons_ne_nil _ _) ((forall₂_says_iff 0).mpr ⟨by decide +kernel, rfl⟩)
      (by decide)
  have hshown : isShowable (numberedDocument n) = (!Number.isTooLong n && true && true) := rfl
  rw [Bool.and_true, Bool.and_true] at hshown
  refine ⟨⟨_, hdefines⟩, ?_⟩
  rw [loadDocument_outcome]
  simp only [toWorkflow_eq_ok_iff, exists_and_right, hshown, Bool.not_eq_true']
  exact and_iff_right ⟨_, hdefines⟩

/-! ## Documents from JSON

The keys of JSON objects are texts, and so the one thing that comes between never does.
-/

/-- What is found in a map is one of its values, or nothing. -/
theorem found_mem (entries : Entries) (p : Value × Value → Bool) :
    ((entries.find? p).map Prod.snd).getD .null = .null ∨
      ∃ key, (key, ((entries.find? p).map Prod.snd).getD .null) ∈ entries := by
  cases hfind : entries.find? p with
  | some entry => exact .inr ⟨entry.1, List.mem_of_find?_eq_some hfind⟩
  | none => exact .inl rfl

/-- A field holds a value of the map, or nothing. -/
theorem field_mem (entries : Entries) (name : String) :
    field entries name = .null ∨ ∃ key, (key, field entries name) ∈ entries := by
  rw [field]
  cases hget : Parameters.get? entries name with
  | some v =>
    obtain ⟨entry, hfind, rfl⟩ := Option.map_eq_some_iff.mp hget
    exact .inr ⟨entry.1, List.mem_of_find?_eq_some hfind⟩
  | none => exact found_mem entries _

theorem mem_ofDocumentMembers {members : List (String × Json)} {entry : Value × Value}
    (h : entry ∈ Value.ofDocumentMembers members) :
    (∃ key, entry.1 = .text key) ∧ ∃ j, entry.2 = Value.ofDocument j := by
  induction members with
  | nil => cases h
  | cons member members ih =>
    rcases List.mem_cons.mp h with rfl | h
    · exact ⟨⟨member.1, rfl⟩, member.2, rfl⟩
    · exact ih h

theorem mem_ofDocumentItems {items : List Json} {v : Value}
    (h : v ∈ Value.ofDocumentItems items) : ∃ j, v = Value.ofDocument j := by
  induction items with
  | nil => cases h
  | cons item items ih =>
    rcases List.mem_cons.mp h with rfl | h
    · exact ⟨item, rfl⟩
    · exact ih h

theorem keysShown_ofDocumentMembers (members : List (String × Json)) :
    keysShown (Value.ofDocumentMembers members) = true := by
  refine List.all_eq_true.mpr fun entry hentry => ?_
  obtain ⟨⟨key, hkey⟩, -⟩ := mem_ofDocumentMembers hentry
  rw [hkey]
  rfl

/-- A field of a JSON object holds a JSON value. -/
theorem field_ofDocumentMembers (members : List (String × Json)) (name : String) :
    ∃ j, field (Value.ofDocumentMembers members) name = Value.ofDocument j := by
  rcases field_mem (Value.ofDocumentMembers members) name with hnull | ⟨key, hmem⟩
  · exact ⟨.null, hnull⟩
  · exact (mem_ofDocumentMembers hmem).2

/-- A literal is a number, or nothing. -/
theorem ofLiteral_cases (literal : String) :
    (∃ n, Value.ofLiteral literal = .integer n) ∨ (∃ x, Value.ofLiteral literal = .real x) ∨
      Value.ofLiteral literal = .null := by
  rw [Value.ofLiteral]
  cases Number.readInteger 10 literal with
  | ok n => exact .inl ⟨n, rfl⟩
  | error _ =>
    cases Number.readReal literal with
    | ok x => exact .inr (.inl ⟨x, rfl⟩)
    | error _ => exact .inr (.inr rfl)

theorem ofDocument_eq_map {j : Json} {entries : Entries} (h : Value.ofDocument j = .map entries) :
    ∃ members, entries = Value.ofDocumentMembers members := by
  cases j with
  | object members => exact ⟨members, (Value.map.inj h).symm⟩
  | number literal =>
    rw [Value.ofDocument] at h
    rcases ofLiteral_cases literal with ⟨n, hn⟩ | ⟨x, hx⟩ | hnull
    · cases hn.symm.trans h
    · cases hx.symm.trans h
    · cases hnull.symm.trans h
  | _ => cases h

theorem ofDocument_eq_list {j : Json} {items : List Value} (h : Value.ofDocument j = .list items) :
    ∃ js, items = Value.ofDocumentItems js := by
  cases j with
  | array js => exact ⟨js, (Value.list.inj h).symm⟩
  | number literal =>
    rw [Value.ofDocument] at h
    rcases ofLiteral_cases literal with ⟨n, hn⟩ | ⟨x, hx⟩ | hnull
    · cases hn.symm.trans h
    · cases hx.symm.trans h
    · cases hnull.symm.trans h
  | _ => cases h

/-- A map within a JSON object can be shown. -/
theorem keysShown_of_mapAt {members : List (String × Json)} {name : String} {inner : Entries}
    (h : mapAt (Value.ofDocumentMembers members) name = some inner) : keysShown inner = true := by
  obtain ⟨j, hj⟩ := field_ofDocumentMembers members name
  rw [mapAt, hj] at h
  split at h
  case h_1 hmap =>
    obtain ⟨members', rfl⟩ := ofDocument_eq_map hmap
    obtain rfl := Option.some.inj h
    exact keysShown_ofDocumentMembers members'
  case h_2 => cases h

theorem stepShown_ofDocument (j : Json) : stepShown (Value.ofDocument j) = true := by
  cases hj : Value.ofDocument j with
  | map entries =>
    obtain ⟨members, rfl⟩ := ofDocument_eq_map hj
    have hinner (name : String) {shown : Entries → Bool}
        (hshown : ∀ inner, keysShown inner = true → shown inner = true) :
        (mapAt (Value.ofDocumentMembers members) name).all shown = true := by
      cases hmap : mapAt (Value.ofDocumentMembers members) name with
      | none => rfl
      | some inner => exact hshown inner (keysShown_of_mapAt hmap)
    rw [stepShown, hinner "Parameters" fun _ h => h, keysShown_ofDocumentMembers,
      hinner "Output" fun inner h => by rw [outputShown, h, Bool.or_true],
      hinner "loop" fun inner h => by rw [loopShown, h, Bool.or_true]]
    rfl
  | _ => rfl

/-- The keys of a JSON document can be shown. -/
theorem isShowable_ofDocument (j : Json) : isShowable (Value.ofDocument j) = true := by
  cases hj : Value.ofDocument j with
  | map entries =>
    obtain ⟨members, rfl⟩ := ofDocument_eq_map hj
    by_cases hlist : ∃ documents,
        field (Value.ofDocumentMembers members) stepsField = .list documents ∧ documents ≠ []
    · obtain ⟨documents, hdocuments, hne⟩ := hlist
      obtain ⟨j', hj'⟩ := field_ofDocumentMembers members stepsField
      obtain ⟨items, rfl⟩ := ofDocument_eq_list (hj'.symm.trans hdocuments)
      rw [isShowable_of_list hdocuments hne, keysShown_ofDocumentMembers, Bool.true_and,
        List.all_eq_true]
      intro v hv
      obtain ⟨item, rfl⟩ := mem_ofDocumentItems hv
      exact stepShown_ofDocument item
    · refine (toWorkflow_of_not_list (fun documents hdocuments => ?_) none).2.1
      by_contra hne
      exact hlist ⟨documents, hdocuments, hne⟩
  | _ => rfl

/-- A JSON document makes the workflow that it says, or problems are reported. -/
theorem loadDocument_ofDocument (loader : Loader) (j : Json) :
    (∃ w, Defines (.ofDocument j) w ∧
        (loader.loadDocument (.ofDocument j)).2.outcome = .ok w) ∨
      (∀ w, ¬Defines (.ofDocument j) w) ∧ ∃ problems, problems ≠ [] ∧
        (loader.loadDocument (.ofDocument j)).2.outcome = .error (.invalid problems) := by
  rw [loadDocument_outcome]
  rcases toWorkflow_outcome (.ofDocument j) with ⟨-, hloaded⟩ | ⟨-, hrefused⟩ | ⟨hshown, -⟩
  · exact .inl hloaded
  · exact .inr hrefused
  · cases (isShowable_ofDocument j).symm.trans hshown

end Runbook.Document
