import Mathlib.Data.List.Count
import Runbook.Proofs.Document.Reading

/-!
# Problems that the workflow adds

The steps that are made of a document are looked at once more, as a workflow, and what is found then
is added unless its wording has been used. The module says which problems come to be added: the
first repetition of each name, and a type that cannot be used where nothing was said yet of the type
of a step of that name.

The module introduces:

* `Document.repetitionWording`: the wording of a repeated name;
* `Document.addedBy`: the problems that a step adds, after the steps before it;
* `Document.addedFrom`: the problems that steps add.

The main result is `Document.Covers.withFurther_stepProblems`.
-/

namespace Runbook.Document

/-! ## Adding what was not said yet -/

/-- The wordings of problems. -/
def wordings (problems : List Problem) : List String :=
  problems.map Problem.message

theorem withFurther_append (problems first second : List Problem) :
    withFurther problems (first ++ second) = withFurther (withFurther problems first) second := by
  induction first generalizing problems with
  | nil => rfl
  | cons p first ih =>
    rw [List.cons_append, withFurther, withFurther]
    split
    · exact ih problems
    · exact ih (problems ++ [p])

theorem wordings_append (first second : List Problem) :
    wordings (first ++ second) = wordings first ++ wordings second :=
  List.map_append

theorem any_message (problems : List Problem) (message : String) :
    problems.any (·.message == message) = decide (message ∈ wordings problems) := by
  rw [Bool.eq_iff_iff]
  simp [wordings]

/-- A problem is added if its wording is new. -/
theorem withFurther_of_not_mem {problems : List Problem} {p : Problem}
    (h : p.message ∉ wordings problems) : withFurther problems [p] = problems ++ [p] := by
  simp [withFurther, any_message, h]

section

variable {c : Prop} [Decidable c]

theorem mem_wordings_ite {p : Problem} {message : String} :
    message ∈ wordings (if c then [p] else []) ↔ c ∧ message = p.message := by
  split <;> simp_all [wordings]

theorem withFurther_ite (problems : List Problem) (p : Problem) :
    withFurther problems (if c then [p] else []) =
      problems ++ if c ∧ p.message ∉ wordings problems then [p] else [] := by
  by_cases hc : c
  · by_cases hp : p.message ∈ wordings problems
    · simp [withFurther, any_message, hc, hp]
    · simp [withFurther_of_not_mem hp, hc, hp]
  · simp [withFurther, hc]

end

/-! ## Wordings -/

/-- The wording of the problem that a step has the name of an earlier one. -/
def repetitionWording (name : String) : String :=
  s!"duplicate step name detected: {name}"

theorem toList_repetitionWording (name : String) :
    (repetitionWording name).toList = "duplicate step name detected: ".toList ++ name.toList :=
  String.toList_append

theorem toList_missingTypeWording (name : String) :
    (missingTypeWording name).toList =
      "step ".toList ++ name.toList ++ " is missing a Type".toList := by
  rw [missingTypeWording, String.toList_append, String.toList_append]
  rfl

theorem repetitionWording_inj {name name' : String} :
    repetitionWording name = repetitionWording name' ↔ name = name' := by
  rw [← String.toList_inj, toList_repetitionWording, toList_repetitionWording,
    List.append_right_inj, String.toList_inj]

theorem missingTypeWording_inj {name name' : String} :
    missingTypeWording name = missingTypeWording name' ↔ name = name' := by
  rw [← String.toList_inj, toList_missingTypeWording, toList_missingTypeWording,
    List.append_left_inj, List.append_right_inj, String.toList_inj]

/-- What stands at the front of a text stays there. -/
theorem head?_append {s t : String} {c : Char} (h : s.toList.head? = some c) :
    (s ++ t).toList.head? = some c := by
  rw [String.toList_append, List.head?_append, h]
  rfl

theorem head?_repetitionWording (name : String) :
    (repetitionWording name).toList.head? = some 'd' :=
  head?_append (by decide)

theorem head?_missingTypeWording (name : String) :
    (missingTypeWording name).toList.head? = some 's' :=
  head?_append (head?_append (by decide))

theorem repetitionWording_ne (name name' : String) :
    repetitionWording name ≠ missingTypeWording name' := by
  intro h
  have hhead := head?_repetitionWording name
  rw [h, head?_missingTypeWording] at hhead
  cases hhead

/-! ## Wordings of what is found

The wording of a missing type can be told from all other wordings by its end, and the wording of a
repetition by its front.
-/

/-- Whether a text ends as the wording of a missing type does. -/
def endsInType (s : String) : Bool :=
  s.toList.reverse.take 2 == ['e', 'p']

/-- The end of a text decides. -/
theorem endsInType_append (s : String) {t : String} (h : 2 ≤ t.toList.length) :
    endsInType (s ++ t) = endsInType t := by
  rw [← List.length_reverse] at h
  rw [endsInType, endsInType, String.toList_append, List.reverse_append,
    List.take_append_of_le_length h]

theorem endsInType_bracket (s : String) : endsInType (s ++ "]") = false := by
  simp [endsInType]

theorem endsInType_missingTypeWording (name : String) : endsInType (missingTypeWording name) = true :=
  (endsInType_append _ (by decide)).trans (by decide)

theorem endsInType_kind (s : String) {v : Value} (h : isOptionalText v = false) :
    endsInType (s ++ v.kind) = false := by
  cases v with
  | null => cases h
  | _ =>
    rw [Value.kind]
    exact (endsInType_append s (by decide)).trans (by decide)

theorem endsInType_wording (index : Nat) (entries : Entries) {place : Place} (h : place ≠ .type) :
    endsInType (wording index entries place) = false := by
  cases place with
  | type => cases h rfl
  | name =>
    rw [wording, nameWording]
    split
    case isTrue => exact (endsInType_append _ (by decide)).trans (by decide)
    case isFalse htext => exact endsInType_kind _ (Bool.not_eq_true _ ▸ htext)
  | parameters =>
    rw [wording]
    cases field entries "Parameters" with
    | map inner =>
      -- The keys are shown between brackets.
      rw [parametersWording, Value.written, toString, instToStringString, ← String.append_assoc]
      exact endsInType_bracket _
    | _ => exact (endsInType_append _ (by decide)).trans (by decide)
  | _ => exact (endsInType_append _ (by decide)).trans (by decide)

/-- The wording of a missing type is used for missing types only. -/
theorem missingTypeWording_eq_wording_iff {name : String} {index : Nat} {entries : Entries}
    {place : Place} :
    missingTypeWording name = wording index entries place ↔
      place = .type ∧ isOptionalText (field entries "Type") = true ∧ nameOf index entries = name := by
  constructor
  · intro h
    have hend := endsInType_missingTypeWording name
    rw [h] at hend
    by_cases hplace : place = .type
    · subst hplace
      rw [wording, typeWording] at h hend
      split at h
      case isTrue htext => exact ⟨rfl, htext, (missingTypeWording_inj.mp h).symm⟩
      case isFalse htext =>
        rw [if_neg htext] at hend
        cases (endsInType_kind _ (Bool.not_eq_true _ ▸ htext)).symm.trans hend
    · cases (endsInType_wording index entries hplace).symm.trans hend
  · rintro ⟨rfl, htext, rfl⟩
    rw [wording, typeWording, if_pos htext]

theorem head?_wording (index : Nat) (entries : Entries) (place : Place) :
    (wording index entries place).toList.head? = some 's' ∨
      (wording index entries place).toList.head? = some 'S' := by
  cases place with
  | step => exact .inr (head?_append (head?_append (by decide)))
  | name =>
    rw [wording, nameWording]
    split
    · exact .inl (head?_append (head?_append (by decide)))
    · exact .inr (head?_append (head?_append (head?_append (by decide))))
  | type =>
    rw [wording, typeWording]
    split
    · exact .inl (head?_missingTypeWording _)
    · exact .inl (head?_append (head?_append (head?_append (by decide))))
  | parameters =>
    rw [wording]
    cases field entries "Parameters" with
    | map inner => exact .inl (head?_append (head?_append (head?_append (by decide))))
    | _ => exact .inl (head?_append (head?_append (by decide)))
  | outputName | outputFormat =>
    exact .inl (head?_append (head?_append (head?_append (head?_append (by decide)))))
  | loopInput | loopItem => exact .inl (head?_append (head?_append (head?_append (by decide))))
  | _ => exact .inl (head?_append (head?_append (by decide)))

/-- Whether the type is missing in the document of the step at a position, which has a name. -/
def tellsNoType (index : Nat) (v : Value) (name : String) : Bool :=
  match v with
  | .map entries =>
    breaksField entries .type && isOptionalText (field entries "Type") &&
      nameOf index entries == name
  | _ => false

/-- Whether the type is missing in one of the documents of steps from a position on, which has a
name. -/
def toldNoType (index : Nat) (documents : List Value) (name : String) : Bool :=
  (documents.zipIdx index).any fun (v, i) => tellsNoType i v name

theorem wordings_problemsOf_map (index : Nat) (entries : Entries) :
    wordings (problemsOf index (.map entries)) =
      (Place.fields.filter (reports entries)).map (wording index entries) := by
  rw [wordings, problemsOf, problemsAt, List.map_map]
  rfl

theorem mem_wordings_problemsOf {index : Nat} {v : Value} {message : String}
    (h : message ∈ wordings (problemsOf index v)) :
    ∃ entries place, message = wording index entries place := by
  cases v with
  | map entries =>
    rw [wordings_problemsOf_map] at h
    obtain ⟨place, -, rfl⟩ := List.mem_map.mp h
    exact ⟨entries, place, rfl⟩
  | _ => exact ⟨[], .step, List.mem_singleton.mp h⟩

theorem missingTypeWording_mem_problemsOf {index : Nat} {v : Value} {name : String} :
    missingTypeWording name ∈ wordings (problemsOf index v) ↔ tellsNoType index v name = true := by
  cases v with
  | map entries =>
    rw [wordings_problemsOf_map, List.mem_map, tellsNoType]
    simp only [@eq_comm _ _ (missingTypeWording name), missingTypeWording_eq_wording_iff,
      List.mem_filter, Bool.and_eq_true, beq_iff_eq]
    constructor
    · rintro ⟨place, ⟨-, hreports⟩, rfl, htext, hname⟩
      rw [reports_of_ne (by decide)] at hreports
      exact ⟨⟨hreports, htext⟩, hname⟩
    · rintro ⟨⟨hbreaks, htext⟩, hname⟩
      refine ⟨.type, ⟨by decide, ?_⟩, rfl, htext, hname⟩
      rw [reports_of_ne (by decide)]
      exact hbreaks
  | _ =>
    refine iff_of_false (fun h => ?_) Bool.false_ne_true
    have hwording := missingTypeWording_eq_wording_iff.mp
      ((List.mem_singleton.mp h : missingTypeWording name = wording index [] .step))
    cases hwording.1

/-! ## What a step adds -/

/-- How many of some steps have a name. -/
def timesNamed (steps : List Step) (name : String) : Nat :=
  (steps.map Step.name).count name

/-- Whether one of some steps has a name and no type that can be used. -/
def lacksType (steps : List Step) (name : String) : Bool :=
  steps.any fun step => step.name == name && Text.isBlank step.type

/-- The problems that a step adds after steps `before` it: its name, if this is the first that
repeats it, and its type, if it cannot be used and nothing was `told` of the types of steps of its
name. -/
def addedBy (told : String → Bool) (before : List Step) (step : Step) : List Problem :=
  (if timesNamed before step.name = 1 then
    [⟨repetitionWording step.name, Workflow.fieldPath before.length "Name", 2⟩]
  else []) ++
  (if Text.isBlank step.type && !(told step.name || lacksType before step.name) then
    [⟨missingTypeWording step.name, Workflow.fieldPath before.length "Type", 2⟩]
  else [])

/-- The problems that steps add after steps `before` them. -/
def addedFrom (told : String → Bool) (before : List Step) : List Step → List Problem
  | [] => []
  | step :: steps => addedBy told before step ++ addedFrom told (before ++ [step]) steps

/-- What problems tell once steps have been looked at: the names that were repeated, and the names
under which a type is missing. -/
structure Covers (told : String → Bool) (before : List Step) (problems : List Problem) : Prop where
  /-- The repeated names are reported. -/
  repetitions : ∀ name,
    repetitionWording name ∈ wordings problems ↔ 2 ≤ timesNamed before name
  /-- The missing types are reported. -/
  types : ∀ name,
    missingTypeWording name ∈ wordings problems ↔ (told name || lacksType before name) = true

theorem mem_wordings_problemsFrom {index : Nat} {documents : List Value} {message : String} :
    message ∈ wordings (problemsFrom index documents) ↔
      ∃ v i, (v, i) ∈ documents.zipIdx index ∧ message ∈ wordings (problemsOf i v) := by
  simp only [wordings, problemsFrom, List.map_flatMap, List.mem_flatMap, Prod.exists]

/-- Wordings of what is found begin alike. -/
theorem head?_of_mem_wordings {index : Nat} {documents : List Value} {message : String}
    (h : message ∈ wordings (problemsFrom index documents)) :
    message.toList.head? = some 's' ∨ message.toList.head? = some 'S' := by
  obtain ⟨v, i, -, hmem⟩ := mem_wordings_problemsFrom.mp h
  obtain ⟨entries, place, rfl⟩ := mem_wordings_problemsOf hmem
  exact head?_wording i entries place

/-- What is found in documents covers no steps yet. -/
theorem covers_problemsFrom (documents : List Value) :
    Covers (toldNoType 0 documents) [] (problemsFrom 0 documents) := by
  constructor
  · intro name
    refine iff_of_false (fun h => ?_) (by simp [timesNamed])
    rcases head?_of_mem_wordings h with hfront | hfront
    · cases hfront.symm.trans (head?_repetitionWording name)
    · cases hfront.symm.trans (head?_repetitionWording name)
  · intro name
    simp only [mem_wordings_problemsFrom, missingTypeWording_mem_problemsOf, toldNoType, lacksType,
      List.any_nil, Bool.or_false, List.any_eq_true, Prod.exists]

theorem timesNamed_concat (before : List Step) (step : Step) (name : String) :
    timesNamed (before ++ [step]) name =
      timesNamed before name + if step.name = name then 1 else 0 := by
  rw [timesNamed, timesNamed, List.map_append, List.count_append, List.map_singleton,
    List.count_singleton]
  simp only [beq_iff_eq]

theorem lacksType_concat (before : List Step) (step : Step) (name : String) :
    lacksType (before ++ [step]) name =
      (lacksType before name || (step.name == name && Text.isBlank step.type)) := by
  simp [lacksType]

section

variable {told : String → Bool} {before : List Step} {problems : List Problem} {step : Step}

theorem repetitionWording_mem_addedBy {name : String} :
    repetitionWording name ∈ wordings (addedBy told before step) ↔
      timesNamed before step.name = 1 ∧ step.name = name := by
  rw [addedBy, wordings_append, List.mem_append, mem_wordings_ite, mem_wordings_ite]
  simp only [repetitionWording_inj, repetitionWording_ne, and_false, or_false, @eq_comm _ name]

theorem missingTypeWording_mem_addedBy {name : String} :
    missingTypeWording name ∈ wordings (addedBy told before step) ↔
      (Text.isBlank step.type && !(told step.name || lacksType before step.name)) = true ∧
        step.name = name := by
  rw [addedBy, wordings_append, List.mem_append, mem_wordings_ite, mem_wordings_ite]
  simp only [missingTypeWording_inj, (repetitionWording_ne _ _).symm, and_false, false_or,
    @eq_comm _ name]

/-- The problems of a step that are new are those that it adds. -/
theorem Covers.withFurther_namedStepProblems (h : Covers told before problems) {seen : List String}
    (hseen : ∀ name, name ∈ seen ↔ 1 ≤ timesNamed before name)
    (hloop : Workflow.loopProblems before.length step = []) :
    withFurther problems (Workflow.namedStepProblems seen before.length step) =
      problems ++ addedBy told before step := by
  -- A repeated name is new the first time, and so is a missing type that was not told of. The
  -- wording of the name comes first and does not stand in the way of the other.
  have hname : (seen.contains step.name = true ∧
      repetitionWording step.name ∉ wordings problems) ↔ timesNamed before step.name = 1 := by
    rw [List.contains_iff_mem, hseen, h.repetitions]
    omega
  have htype {c : Prop} [Decidable c] {path : String} : (Text.isBlank step.type = true ∧
      missingTypeWording step.name ∉ wordings
        (problems ++ if c then [⟨repetitionWording step.name, path, 2⟩] else [])) ↔
      (Text.isBlank step.type && !(told step.name || lacksType before step.name)) = true := by
    rw [wordings_append, List.mem_append, mem_wordings_ite, h.types]
    simp only [(repetitionWording_ne _ _).symm, and_false, or_false, Bool.and_eq_true,
      Bool.not_eq_true', Bool.not_eq_true]
  have hnamed : Workflow.namedStepProblems seen before.length step =
      (if seen.contains step.name then
        [⟨repetitionWording step.name, Workflow.fieldPath before.length "Name", 2⟩]
      else []) ++
      (if Text.isBlank step.type then
        [⟨missingTypeWording step.name, Workflow.fieldPath before.length "Type", 2⟩]
      else []) := by
    rw [Workflow.namedStepProblems, hloop, List.append_nil]
    rfl
  rw [hnamed, withFurther_append, withFurther_ite, withFurther_ite, addedBy, ← List.append_assoc]
  simp only [hname, htype]

/-- What a step adds covers the step. -/
theorem Covers.concat (h : Covers told before problems) :
    Covers told (before ++ [step]) (problems ++ addedBy told before step) := by
  constructor
  · intro name
    rw [wordings_append, List.mem_append, h.repetitions, repetitionWording_mem_addedBy,
      timesNamed_concat]
    by_cases hname : step.name = name
    · subst hname
      simp
      omega
    · simp [hname]
  · intro name
    rw [wordings_append, List.mem_append, h.types, missingTypeWording_mem_addedBy, lacksType_concat]
    by_cases hname : step.name = name
    · subst hname
      cases told step.name <;> cases lacksType before step.name <;> simp
    · simp [hname]

end

/-- What is known of steps that are made of documents: they have names, and their loops are
complete. -/
structure IsNamed (step : Step) : Prop where
  /-- The name is not blank. -/
  name : Text.isBlank step.name = false
  /-- A loop has an input and a name for its items. -/
  loop : ∀ index, Workflow.loopProblems index step = []

/-- The problems of steps that are new are those that the steps add. -/
theorem Covers.withFurther_stepProblems {told : String → Bool} {before steps : List Step}
    {problems : List Problem} (h : Covers told before problems) {seen : List String}
    (hseen : ∀ name, name ∈ seen ↔ 1 ≤ timesNamed before name)
    (hsteps : ∀ step ∈ steps, IsNamed step) :
    withFurther problems (Workflow.stepProblems seen before.length steps) =
      problems ++ addedFrom told before steps := by
  induction steps generalizing before problems seen with
  | nil => rw [Workflow.stepProblems, addedFrom, withFurther, List.append_nil]
  | cons step steps ih =>
    obtain ⟨hstep, hsteps⟩ := List.forall_mem_cons.mp hsteps
    rw [Workflow.stepProblems, hstep.name, if_neg Bool.false_ne_true, withFurther_append,
      h.withFurther_namedStepProblems hseen (hstep.loop _), addedFrom, ← List.append_assoc]
    have hseen' (name : String) :
        name ∈ step.name :: seen ↔ 1 ≤ timesNamed (before ++ [step]) name := by
      rw [List.mem_cons, hseen, timesNamed_concat, eq_comm]
      split <;> simp_all
    have hlength : before.length + 1 = (before ++ [step]).length := by simp
    rw [hlength]
    exact ih h.concat hseen' hsteps

end Runbook.Document
