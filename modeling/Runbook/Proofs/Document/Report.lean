import Mathlib.Data.List.Basic
import Mathlib.Data.List.Nodup
import Runbook.Proofs.Document.Acceptance
import Runbook.Proofs.Document.Further

/-!
# Which problems are reported

What is reported of a document is what is found in the documents of the steps and what the steps add
as a workflow. The module counts how often each place of a step is reported, and shows that whatever
is reported stands at such a place.

The module introduces:

* `Document.countAt`: how often a place of a step is reported;
* `Document.addedProblems`: the problems that the steps made of documents add;
* `Document.foundAt` and `Document.addedAt`: how often a place is found broken, and how often steps
  add a problem there.

The main results are `Document.countAt_reported` and `Document.path_of_reported`.
-/

namespace Runbook.Document

/-! ## Places and their names -/

/-- What a path shows of a place after the position. -/
def Place.ending : Place → List Char
  | .step => []
  | place => '.' :: place.label.toList

theorem Place.ending_inj {place place' : Place} : place.ending = place'.ending ↔ place = place' := by
  have hnodup : ((Place.step :: Place.fields).map Place.ending).Nodup := by decide +kernel
  have hmem (place : Place) : place ∈ Place.step :: Place.fields := by cases place <;> decide
  exact ⟨fun h => List.inj_on_of_nodup_map hnodup (hmem _) (hmem _) h, congrArg _⟩

theorem toList_path (index : Nat) (place : Place) :
    (place.path index).toList = "Steps[".toList ++ (index.repr.toList ++ ']' :: place.ending) := by
  have hfield (field : String) : (Workflow.fieldPath index field).toList =
      "Steps[".toList ++ (index.repr.toList ++ ']' :: '.' :: field.toList) := by
    rw [Workflow.fieldPath, String.toList_append, String.toList_append, String.toList_append,
      Nat.toString_eq_repr, List.append_assoc, List.append_assoc]
    rfl
  cases place with
  | step =>
    rw [Place.path, String.toList_append, String.toList_append, Nat.toString_eq_repr,
      List.append_assoc]
    rfl
  | _ => exact hfield _

/-- No bracket stands among the digits of a number. -/
theorem bracket_not_mem_repr (n : Nat) : ']' ∉ n.repr.toList := by
  rw [Nat.toList_repr]
  intro hmem
  have hdigit : ']'.isDigit = true := Nat.isDigit_of_mem_toDigits (by decide) (by decide) hmem
  cases hdigit

/-- The digits of a number tell the number. -/
theorem repr_inj {n n' : Nat} : n.repr = n'.repr ↔ n = n' := by
  refine ⟨fun h => ?_, congrArg _⟩
  have hdigits := congrArg (fun s : String => Nat.ofDigitChars 10 s.toList 0) h
  simpa only [Nat.toList_repr, Nat.ofDigitChars_toDigits (by decide : 1 < 10) (by decide)]
    using hdigits

theorem Place.bracket_not_mem_ending (place : Place) : ']' ∉ place.ending := by
  cases place <;> decide +kernel

/-- A path tells the position and the place. -/
theorem path_inj {index index' : Nat} {place place' : Place} :
    place.path index = place'.path index' ↔ index = index' ∧ place = place' := by
  constructor
  · intro h
    rw [← String.toList_inj, toList_path, toList_path, List.append_right_inj,
      List.append_cons_inj_of_notMem (bracket_not_mem_repr _) place.bracket_not_mem_ending] at h
    exact ⟨repr_inj.mp (String.toList_inj.mp h.1), Place.ending_inj.mp h.2.2⟩
  · rintro ⟨rfl, rfl⟩
    rfl

/-- How many problems stand at a place of the step at a position. -/
def countAt (index : Nat) (place : Place) (problems : List Problem) : Nat :=
  problems.countP fun p => p.path == place.path index

/-- Problems stand at places of steps in a range of positions. -/
def Within (first last : Nat) (problems : List Problem) : Prop :=
  ∀ p ∈ problems, ∃ index place, first ≤ index ∧ index < last ∧ p.path = Place.path index place

theorem countAt_append (index : Nat) (place : Place) (first second : List Problem) :
    countAt index place (first ++ second) = countAt index place first + countAt index place second :=
  List.countP_append

theorem Within.append {first last : Nat} {problems problems' : List Problem}
    (h : Within first last problems) (h' : Within first last problems') :
    Within first last (problems ++ problems') :=
  fun p hp => (List.mem_append.mp hp).elim (h p) (h' p)

theorem Within.mono {first last first' last' : Nat} {problems : List Problem}
    (h : Within first last problems) (hfirst : first' ≤ first) (hlast : last ≤ last') :
    Within first' last' problems := by
  intro p hp
  obtain ⟨index, place, hle, hlt, hpath⟩ := h p hp
  exact ⟨index, place, by omega, by omega, hpath⟩

/-- No problem stands at positions out of range. -/
theorem Within.countAt_eq_zero {first last index : Nat} {place : Place} {problems : List Problem}
    (h : Within first last problems) (hindex : index < first ∨ last ≤ index) :
    countAt index place problems = 0 := by
  rw [countAt, List.countP_eq_zero]
  intro p hp hpath
  obtain ⟨index', place', hle, hlt, hpath'⟩ := h p hp
  have hsame := (path_inj.mp (hpath'.symm.trans (beq_iff_eq.mp hpath))).1
  omega

theorem countAt_singleton (index index' : Nat) (place place' : Place) (message : String) :
    countAt index place [⟨message, place'.path index', 2⟩] =
      if index' = index ∧ place' = place then 1 else 0 := by
  simp only [countAt, List.countP_singleton, beq_iff_eq, path_inj]

/-! ## What is found in documents -/

/-- Whether the broken rule of a place is found in the document of a step. -/
def isFound : Value → Place → Bool
  | .map entries, place => reports entries place
  | _, place => place == .step

theorem countAt_problemsOf (index : Nat) (v : Value) (place : Place) :
    countAt index place (problemsOf index v) = if isFound v place then 1 else 0 := by
  cases v with
  | map entries =>
    have hplaces : countAt index place (problemsOf index (.map entries)) =
        (Place.fields.filter (reports entries)).count place := by
      rw [countAt, problemsOf, problemsAt, List.countP_map, List.count]
      refine List.countP_congr fun place' _ => ?_
      simp [path_inj]
    rw [hplaces, isFound]
    cases hreports : reports entries place with
    | true =>
      -- The step itself is no field of the map, and it is not reported.
      have hne : place ≠ .step := by
        rintro rfl
        cases hreports
      rw [List.count_filter hreports]
      exact List.count_eq_one_of_mem (by decide) (Place.mem_fields_iff.mpr hne)
    | false => exact List.count_eq_zero_of_not_mem fun h => by simp [hreports] at h
  | _ =>
    refine (countAt_singleton index index place .step _).trans ?_
    simp only [isFound, true_and, beq_iff_eq, @eq_comm _ place]

theorem within_problemsOf (index : Nat) (v : Value) :
    Within index (index + 1) (problemsOf index v) := by
  cases v with
  | map entries =>
    intro p hp
    obtain ⟨place, -, rfl⟩ := List.mem_map.mp hp
    exact ⟨index, place, Nat.le_refl _, by omega, rfl⟩
  | _ =>
    intro p hp
    obtain rfl := List.mem_singleton.mp hp
    exact ⟨index, .step, Nat.le_refl _, by omega, rfl⟩

theorem within_problemsFrom (index : Nat) (documents : List Value) :
    Within index (index + documents.length) (problemsFrom index documents) := by
  induction documents generalizing index with
  | nil => exact fun p hp => absurd hp List.not_mem_nil
  | cons v documents ih =>
    rw [problemsFrom_cons, List.length_cons]
    exact ((within_problemsOf index v).mono (Nat.le_refl _) (by omega)).append
      ((ih (index + 1)).mono (by omega) (by omega))

/-- The rules that are found broken are reported once, at the position of the step. -/
theorem countAt_problemsFrom (index i : Nat) (documents : List Value) (place : Place) :
    countAt (index + i) place (problemsFrom index documents) =
      match documents[i]? with
      | some v => if isFound v place then 1 else 0
      | none => 0 := by
  induction documents generalizing index i with
  | nil => rfl
  | cons v documents ih =>
    rw [problemsFrom_cons, countAt_append]
    cases i with
    | zero =>
      rw [Nat.add_zero, (within_problemsFrom (index + 1) documents).countAt_eq_zero (by omega),
        countAt_problemsOf]
      rfl
    | succ i =>
      rw [(within_problemsOf index v).countAt_eq_zero (by omega), Nat.zero_add,
        List.getElem?_cons_succ, ← ih (index + 1) i]
      congr 1
      omega

/-! ## What steps add -/

section

variable (told : String → Bool)

/-- How often a step adds a problem at a place, after steps `before` it. -/
def addedCount (before : List Step) (step : Step) : Place → Nat
  | .name => if timesNamed before step.name = 1 then 1 else 0
  | .type =>
    if Text.isBlank step.type && !(told step.name || lacksType before step.name) then 1 else 0
  | _ => 0

theorem countAt_ite {c : Prop} [Decidable c] (index : Nat) (place place' : Place)
    (message : String) :
    countAt index place (if c then [⟨message, place'.path index, 2⟩] else []) =
      if c ∧ place' = place then 1 else 0 := by
  split
  case isTrue hc => simp only [countAt_singleton, hc, true_and]
  case isFalse hc => simp [countAt, hc]

theorem countAt_addedBy (before : List Step) (step : Step) (place : Place) :
    countAt before.length place (addedBy told before step) = addedCount told before step place := by
  have hadded := countAt_append before.length place
    (if timesNamed before step.name = 1 then
      [⟨repetitionWording step.name, Place.name.path before.length, 2⟩]
    else [])
    (if Text.isBlank step.type && !(told step.name || lacksType before step.name) then
      [⟨missingTypeWording step.name, Place.type.path before.length, 2⟩]
    else [])
  refine hadded.trans ?_
  rw [countAt_ite, countAt_ite]
  cases place <;> simp [addedCount]

theorem within_addedBy (before : List Step) (step : Step) :
    Within before.length (before.length + 1) (addedBy told before step) := by
  intro p hp
  rw [addedBy, List.mem_append, List.mem_ite_nil_right, List.mem_ite_nil_right] at hp
  rcases hp with ⟨-, hp⟩ | ⟨-, hp⟩
  · exact ⟨before.length, .name, Nat.le_refl _, by omega, congrArg _ (List.mem_singleton.mp hp)⟩
  · exact ⟨before.length, .type, Nat.le_refl _, by omega, congrArg _ (List.mem_singleton.mp hp)⟩

theorem within_addedFrom (before steps : List Step) :
    Within before.length (before.length + steps.length) (addedFrom told before steps) := by
  induction steps generalizing before with
  | nil => exact fun p hp => absurd hp List.not_mem_nil
  | cons step steps ih =>
    have hrest := ih (before ++ [step])
    rw [List.length_append, List.length_singleton] at hrest
    rw [addedFrom, List.length_cons]
    exact ((within_addedBy told before step).mono (Nat.le_refl _) (by omega)).append
      (hrest.mono (by omega) (by omega))

/-- Steps add problems at their positions among the steps. -/
theorem countAt_addedFrom (before : List Step) (i : Nat) (steps : List Step) (place : Place) :
    countAt (before.length + i) place (addedFrom told before steps) =
      match steps[i]? with
      | some step => addedCount told (before ++ steps.take i) step place
      | none => 0 := by
  induction steps generalizing before i with
  | nil => rfl
  | cons step steps ih =>
    have hlength : (before ++ [step]).length = before.length + 1 := by simp
    rw [addedFrom, countAt_append]
    cases i with
    | zero =>
      have hrest := within_addedFrom told (before ++ [step]) steps
      rw [hlength] at hrest
      rw [Nat.add_zero, hrest.countAt_eq_zero (by omega), countAt_addedBy]
      simp
    | succ i =>
      have hposition : before.length + (i + 1) = (before ++ [step]).length + i := by omega
      rw [(within_addedBy told before step).countAt_eq_zero (by omega), Nat.zero_add, hposition, ih]
      simp

end

/-! ## What is reported -/

theorem isBlank_of_filled? {v : Value} {s : String} (h : filled? v = some s) :
    Text.isBlank s = false := by
  rw [filled?, Option.filter_eq_some_iff] at h
  simpa using h.2

/-- What stands for a name is not blank. -/
theorem isBlank_placeholderName (index : Nat) : Text.isBlank (placeholderName index) = false := by
  have hfront : (placeholderName index).toList.head? = some '<' :=
    head?_append (head?_append (by decide))
  obtain ⟨tail, htail⟩ := List.head?_eq_some_iff.mp hfront
  rw [Text.isBlank, htail, List.all_cons]
  rfl

/-- Steps that are made of documents have names, and their loops are complete. -/
theorem isNamed_stepOf (index : Nat) (entries : Entries) : IsNamed (stepOf index entries) := by
  constructor
  · rw [stepOf, nameOf]
    cases hname : filled? (field entries "Name") with
    | none => exact isBlank_placeholderName index
    | some name => exact isBlank_of_filled? hname
  · intro index
    rw [Workflow.loopProblems_eq_nil_iff]
    intro loop hloop
    obtain ⟨inner, -, hdeclared⟩ := Option.bind_eq_some_iff.mp hloop
    unfold declaredLoop? at hdeclared
    split at hdeclared
    case h_1 inputData itemName hinput hitem =>
      obtain rfl := Option.some.inj hdeclared
      exact ⟨isBlank_of_filled? hinput, isBlank_of_filled? hitem⟩
    case h_2 => cases hdeclared

theorem isNamed_of_mem_stepsFrom {index : Nat} {documents : List Value} {step : Step}
    (h : step ∈ stepsFrom index documents) : IsNamed step := by
  obtain ⟨⟨v, i⟩, -, hstep⟩ := List.mem_filterMap.mp h
  cases v with
  | map entries =>
    obtain rfl := Option.some.inj hstep
    exact isNamed_stepOf i entries
  | _ => cases hstep

/-- The problems that the steps made of documents add. -/
def addedProblems (documents : List Value) : List Problem :=
  if (stepsFrom 0 documents).isEmpty then [⟨"workflow contains no steps", "", 2⟩]
  else addedFrom (toldNoType 0 documents) [] (stepsFrom 0 documents)

/-- What is reported is what was found and what the steps add. -/
theorem withFurther_problems (documents : List Value) (path : Option Path) :
    withFurther (problemsFrom 0 documents) (⟨stepsFrom 0 documents, path⟩ : Workflow).problems =
      problemsFrom 0 documents ++ addedProblems documents := by
  rw [Workflow.problems, addedProblems]
  split
  case isTrue hempty =>
    have hnew : "workflow contains no steps" ∉ wordings (problemsFrom 0 documents) := by
      intro h
      have hfront : "workflow contains no steps".toList.head? = some 'w' := by decide
      rcases head?_of_mem_wordings h with hfront' | hfront'
      · cases hfront.symm.trans hfront'
      · cases hfront.symm.trans hfront'
    exact withFurther_of_not_mem hnew
  case isFalse hne =>
    exact (covers_problemsFrom documents).withFurther_stepProblems (by simp [timesNamed])
      fun step hstep => isNamed_of_mem_stepsFrom hstep

theorem workflowOf_problems {entries : Entries} {documents : List Value} (path : Option Path)
    (h : (keysShown entries && documents.all stepShown) = true) :
    (workflowOf path entries documents).problems =
      problemsFrom 0 documents ++ addedProblems documents := by
  rw [workflowOf_of_shown path h, withFurther_problems]
  cases problemsFrom 0 documents ++ addedProblems documents <;> rfl

/-- Problems that are reported are what the loading ends with. -/
theorem workflowOf_outcome {entries : Entries} {documents : List Value} (path : Option Path)
    (h : (keysShown entries && documents.all stepShown) = true)
    (hproblems : problemsFrom 0 documents ++ addedProblems documents ≠ []) :
    (workflowOf path entries documents).outcome =
      .error (.invalid (problemsFrom 0 documents ++ addedProblems documents)) := by
  obtain ⟨problem, problems, hlist⟩ := List.exists_cons_of_ne_nil hproblems
  rw [workflowOf_of_shown path h, withFurther_problems, hlist]
  rfl

/-- How often the broken rule of a place is found. -/
def foundAt (documents : List Value) (index : Nat) (place : Place) : Nat :=
  match documents[index]? with
  | some v => if isFound v place then 1 else 0
  | none => 0

/-- How often the steps made of documents add a problem at a place. The position is that among the
steps that were made. -/
def addedAt (documents : List Value) (index : Nat) (place : Place) : Nat :=
  match (stepsFrom 0 documents)[index]? with
  | some step =>
    addedCount (toldNoType 0 documents) ((stepsFrom 0 documents).take index) step place
  | none => 0

theorem path_ne_empty (index : Nat) (place : Place) : place.path index ≠ "" := by
  intro h
  have hempty := toList_path index place
  rw [h] at hempty
  cases hempty

theorem countAt_addedProblems (documents : List Value) (index : Nat) (place : Place) :
    countAt index place (addedProblems documents) = addedAt documents index place := by
  rw [addedProblems, addedAt]
  split
  case isTrue hempty =>
    rw [List.isEmpty_iff.mp hempty, countAt, List.countP_singleton,
      if_neg (by simpa using (path_ne_empty index place).symm)]
    rfl
  case isFalse hne =>
    have hcount := countAt_addedFrom (toldNoType 0 documents) [] index (stepsFrom 0 documents) place
    rwa [List.length_nil, Nat.zero_add, List.nil_append] at hcount

/-- How often a place is reported. -/
theorem countAt_reported (documents : List Value) (index : Nat) (place : Place) :
    countAt index place (problemsFrom 0 documents ++ addedProblems documents) =
      foundAt documents index place + addedAt documents index place := by
  have hfound := countAt_problemsFrom 0 index documents place
  rw [Nat.zero_add] at hfound
  rw [countAt_append, hfound, countAt_addedProblems, foundAt]

/-- Whatever is reported stands at a place of a step, or there are no steps at all. -/
theorem path_of_reported {documents : List Value} {p : Problem}
    (h : p ∈ problemsFrom 0 documents ++ addedProblems documents) :
    (∃ index place, index < documents.length ∧ p.path = Place.path index place) ∨
      p.path = "" ∧ stepsFrom 0 documents = [] := by
  rcases List.mem_append.mp h with hfound | hadded
  · obtain ⟨index, place, -, hlt, hpath⟩ := within_problemsFrom 0 documents p hfound
    exact .inl ⟨index, place, by omega, hpath⟩
  · rw [addedProblems] at hadded
    split at hadded
    case isTrue hempty =>
      obtain rfl := List.mem_singleton.mp hadded
      exact .inr ⟨rfl, List.isEmpty_iff.mp hempty⟩
    case isFalse hne =>
      obtain ⟨index, place, -, hlt, hpath⟩ := within_addedFrom _ _ _ p hadded
      have hlength : (stepsFrom 0 documents).length ≤ (documents.zipIdx 0).length :=
        List.length_filterMap_le _ _
      rw [List.length_zipIdx] at hlength
      exact .inl ⟨index, place, by rw [List.length_nil] at hlt; omega, hpath⟩

end Runbook.Document
