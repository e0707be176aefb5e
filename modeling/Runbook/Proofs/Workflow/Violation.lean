import Runbook.Proofs.Workflow.Validation

/-!
# What the problems of a workflow tell

The rules for the steps of a workflow are set down one by one, each in terms of a step and of the
steps before it, and without the search for problems. The problems of a workflow with steps are then
those of the rules that are broken: every one of them, once, at the position of the step that breaks
it, and in the order of the steps.

The module introduces:

* `Workflow.Rule` and `Workflow.Breaks`: the rules, and when a step breaks one;
* `Workflow.Violation`: a rule that the step at a position breaks;
* `Workflow.Reported`: problems that tell of all violations and of nothing else.

The main result is `Workflow.reported_problems`.
-/

namespace Runbook.Workflow

/-! ## Rules -/

/-- A rule for the steps of a workflow. -/
inductive Rule where
  /-- A step has a name. -/
  | name
  /-- The name of a step is not that of an earlier one. -/
  | ownName
  /-- A step has a type. -/
  | type
  /-- A loop has an input. -/
  | loopInput
  /-- A loop has a name for its items. -/
  | loopItem
  deriving DecidableEq, Repr

namespace Rule

/-- The rules in the order in which they are looked at. -/
def all : List Rule := [.name, .ownName, .type, .loopInput, .loopItem]

/-- The place of a rule in that order. -/
def rank : Rule → Nat
  | .name => 0
  | .ownName => 1
  | .type => 2
  | .loopInput => 3
  | .loopItem => 4

/-- The field of a step that a rule is about. -/
def field : Rule → String
  | .name => "Name"
  | .ownName => "Name"
  | .type => "Type"
  | .loopInput => "loop.input_data"
  | .loopItem => "loop.item_name"

/-- The wording of the problem that the step at a position breaks a rule. -/
def wording (index : Nat) (step : Step) : Rule → String
  | .name => s!"step {index} is missing a Name"
  | .ownName => s!"duplicate step name detected: {step.name}"
  | .type => s!"step {step.name} is missing a Type"
  | .loopInput => s!"step {step.name} loop is missing input_data"
  | .loopItem => s!"step {step.name} loop is missing item_name"

theorem mem_all (rule : Rule) : rule ∈ all := by
  cases rule <;> decide

theorem pairwise_rank_all : all.Pairwise fun r r' => r.rank < r'.rank := by
  decide

end Rule

/-- When a step that comes after the steps `before` breaks a rule. A step without a name breaks no
other rule. -/
def Breaks (before : List Step) (step : Step) : Rule → Prop
  | .name => Text.isBlank step.name = true
  | .ownName => Text.isBlank step.name = false ∧ ∃ earlier ∈ before, earlier.name = step.name
  | .type => Text.isBlank step.name = false ∧ Text.isBlank step.type = true
  | .loopInput =>
    Text.isBlank step.name = false ∧ ∃ loop, step.loop = some loop ∧
      Text.isBlank loop.inputData = true
  | .loopItem =>
    Text.isBlank step.name = false ∧ ∃ loop, step.loop = some loop ∧
      Text.isBlank loop.itemName = true

instance (before : List Step) (step : Step) : DecidablePred (Breaks before step) := fun rule =>
  match rule with
  | .name => inferInstanceAs (Decidable (_ = _))
  | .ownName => inferInstanceAs (Decidable (_ ∧ _))
  | .type => inferInstanceAs (Decidable (_ ∧ _))
  | .loopInput => decidable_of_iff
      (Text.isBlank step.name = false ∧ step.loop.any (Text.isBlank ·.inputData) = true)
      (by simp [Breaks, Option.any_eq_true])
  | .loopItem => decidable_of_iff
      (Text.isBlank step.name = false ∧ step.loop.any (Text.isBlank ·.itemName) = true)
      (by simp [Breaks, Option.any_eq_true])

/-! ## Violations -/

/-- A rule that the step at a position breaks. -/
structure Violation where
  /-- The position of the step. -/
  index : Nat
  /-- The step. -/
  step : Step
  /-- The rule. -/
  rule : Rule

namespace Violation

/-- The problem that is reported. -/
def problem (v : Violation) : Problem :=
  ⟨v.rule.wording v.index v.step, fieldPath v.index v.rule.field, 2⟩

/-- The order of violations: by the positions of the steps, and for one step by the rules. -/
def Precedes (v v' : Violation) : Prop :=
  v.index < v'.index ∨ v.index = v'.index ∧ v.rule.rank < v'.rule.rank

end Violation

/-- The violations of a step that comes after the steps `before`. -/
def violationsAt (before : List Step) (step : Step) : List Violation :=
  (Rule.all.filter (Breaks before step ·)).map (⟨before.length, step, ·⟩)

/-- The violations of steps that come after the steps `before`. -/
def violationsFrom (before : List Step) : List Step → List Violation
  | [] => []
  | step :: steps => violationsAt before step ++ violationsFrom (before ++ [step]) steps

/-- Problems tell of the violations of a workflow: there is one for each violation, and these are
listed in their order, each once. -/
structure Reported (w : Workflow) (problems : List Problem) (violations : List Violation) :
    Prop where
  /-- Each problem is that of a violation. -/
  problems : problems = violations.map Violation.problem
  /-- The violations come in the order of the steps, and none comes twice. -/
  order : violations.Pairwise Violation.Precedes
  /-- They are the rules that steps break at their positions. -/
  exact : ∀ v, v ∈ violations ↔ ∃ before after, w.steps = before ++ v.step :: after ∧
    before.length = v.index ∧ Breaks before v.step v.rule

section Violations

variable {before steps : List Step} {step : Step}

theorem mem_violationsAt {v : Violation} :
    v ∈ violationsAt before step ↔
      v.step = step ∧ v.index = before.length ∧ Breaks before step v.rule := by
  obtain ⟨index, step', rule⟩ := v
  simp only [violationsAt, List.mem_map, List.mem_filter, Rule.mem_all, true_and,
    decide_eq_true_eq, Violation.mk.injEq]
  constructor
  · rintro ⟨rule, hbreaks, rfl, rfl, rfl⟩
    exact ⟨rfl, rfl, hbreaks⟩
  · rintro ⟨rfl, rfl, hbreaks⟩
    exact ⟨rule, hbreaks, rfl, rfl, rfl⟩

/-- A violation is that of one of the steps, by those that come before it. -/
theorem mem_violationsFrom {v : Violation} :
    v ∈ violationsFrom before steps ↔ ∃ between after, steps = between ++ v.step :: after ∧
      v.index = (before ++ between).length ∧ Breaks (before ++ between) v.step v.rule := by
  induction steps generalizing before with
  | nil => simp [violationsFrom]
  | cons step steps ih =>
    rw [violationsFrom, List.mem_append, mem_violationsAt, ih]
    constructor
    · rintro (⟨hstep, hindex, hbreaks⟩ | ⟨between, after, rfl, hindex, hbreaks⟩)
      · subst hstep
        rw [← List.append_nil before] at hindex hbreaks
        exact ⟨[], steps, rfl, hindex, hbreaks⟩
      · rw [List.append_assoc] at hindex hbreaks
        exact ⟨step :: between, after, rfl, hindex, hbreaks⟩
    · rintro ⟨between, after, hsteps, hindex, hbreaks⟩
      cases between with
      | nil =>
        obtain ⟨rfl, rfl⟩ := List.cons.inj hsteps
        rw [List.append_nil] at hindex hbreaks
        exact .inl ⟨rfl, hindex, hbreaks⟩
      | cons first between =>
        obtain ⟨rfl, rfl⟩ := List.cons.inj hsteps
        rw [List.append_cons] at hindex hbreaks
        exact .inr ⟨between, after, rfl, hindex, hbreaks⟩

/-- The violations of one step come in the order of the rules. -/
theorem pairwise_violationsAt (before : List Step) (step : Step) :
    (violationsAt before step).Pairwise Violation.Precedes := by
  rw [violationsAt, List.pairwise_map]
  exact (Rule.pairwise_rank_all.filter _).imp fun hrank => .inr ⟨rfl, hrank⟩

/-- The violations of steps come in the order of the steps. -/
theorem pairwise_violationsFrom (before steps : List Step) :
    (violationsFrom before steps).Pairwise Violation.Precedes := by
  induction steps generalizing before with
  | nil => exact .nil
  | cons step steps ih =>
    refine List.pairwise_append.mpr ⟨pairwise_violationsAt before step, ih _, ?_⟩
    intro v hv v' hv'
    -- The later steps stand at greater positions.
    obtain ⟨-, hindex, -⟩ := mem_violationsAt.mp hv
    obtain ⟨between, after, -, hindex', -⟩ := mem_violationsFrom.mp hv'
    left
    rw [hindex, hindex', List.length_append, List.length_append, List.length_singleton]
    omega

/-! ## Problems -/

/-- The problems of the violations of a step, rule by rule. -/
theorem map_problem_violationsAt :
    (violationsAt before step).map Violation.problem =
      Rule.all.flatMap fun rule =>
        if Breaks before step rule then [Violation.problem ⟨before.length, step, rule⟩]
        else [] := by
  rw [violationsAt]
  induction Rule.all with
  | nil => rfl
  | cons rule rules ih =>
    by_cases hbreaks : Breaks before step rule <;> simp_all

/-- The problems of a step with a name are those of its violations; `seen` are the names of earlier
steps. -/
theorem namedStepProblems_eq {seen : List String} (hname : Text.isBlank step.name = false)
    (hseen : step.name ∈ seen ↔ ∃ earlier ∈ before, earlier.name = step.name) :
    namedStepProblems seen before.length step =
      (violationsAt before step).map Violation.problem := by
  have hfirst : ¬Breaks before step .name := by
    simp [Breaks, hname]
  have hown : Breaks before step .ownName ↔ seen.contains step.name = true := by
    simp [Breaks, hname, hseen]
  have htype : Breaks before step .type ↔ Text.isBlank step.type = true := by
    simp [Breaks, hname]
  have hloop : loopProblems before.length step =
      [Rule.loopInput, .loopItem].flatMap fun rule =>
        if Breaks before step rule then [Violation.problem ⟨before.length, step, rule⟩]
        else [] := by
    unfold loopProblems
    cases hstep : step.loop with
    | none => simp [Breaks, hstep]
    | some loop =>
      have hinput : Breaks before step .loopInput ↔ Text.isBlank loop.inputData = true := by
        simp [Breaks, hname, hstep]
      have hitem : Breaks before step .loopItem ↔ Text.isBlank loop.itemName = true := by
        simp [Breaks, hname, hstep]
      simp only [List.flatMap_cons, List.flatMap_nil, List.append_nil, hinput, hitem]
      rfl
  rw [map_problem_violationsAt, namedStepProblems, hloop, Rule.all]
  simp only [List.flatMap_cons, hfirst, hown, htype, if_false, List.nil_append, List.append_assoc]
  rfl

/-- A step without a name breaks that one rule. -/
theorem violationsAt_of_isBlank (hname : Text.isBlank step.name = true) :
    violationsAt before step = [⟨before.length, step, .name⟩] := by
  simp [violationsAt, Rule.all, Breaks, hname]

/-- The problems of steps are those of their violations; `seen` are the names of the steps before
them, of those that have one. -/
theorem stepProblems_eq {seen : List String}
    (hseen : ∀ name, Text.isBlank name = false →
      (name ∈ seen ↔ ∃ earlier ∈ before, earlier.name = name)) :
    stepProblems seen before.length steps =
      (violationsFrom before steps).map Violation.problem := by
  induction steps generalizing before seen with
  | nil => rfl
  | cons step steps ih =>
    have hlength : (before ++ [step]).length = before.length + 1 := by simp
    rw [stepProblems, violationsFrom, List.map_append, ← hlength]
    cases hname : Text.isBlank step.name with
    | true =>
      -- A blank name is not remembered, and no step that is asked for it has one.
      have hlater : ∀ name, Text.isBlank name = false →
          (name ∈ seen ↔ ∃ earlier ∈ before ++ [step], earlier.name = name) := by
        intro name hfilled
        have hne : step.name ≠ name := by
          rintro rfl
          cases hname.symm.trans hfilled
        simp [hseen name hfilled, or_and_right, exists_or, hne]
      rw [violationsAt_of_isBlank hname, ← ih hlater]
      rfl
    | false =>
      have hlater : ∀ name, Text.isBlank name = false →
          (name ∈ step.name :: seen ↔ ∃ earlier ∈ before ++ [step], earlier.name = name) := by
        intro name hfilled
        simp [hseen name hfilled, or_and_right, exists_or, or_comm, eq_comm]
      rw [← namedStepProblems_eq hname (hseen _ hname), ← ih hlater]
      rfl

end Violations

/-- The problems of a workflow with steps tell of its violations, of all of them and of nothing
else. -/
theorem reported_problems {w : Workflow} (hne : w.steps ≠ []) :
    Reported w w.problems (violationsFrom [] w.steps) := by
  refine ⟨?_, pairwise_violationsFrom [] w.steps, fun v => ?_⟩
  · rw [problems, if_neg (mt List.isEmpty_iff.mp hne)]
    exact @stepProblems_eq [] w.steps [] fun name _ => by simp
  · rw [mem_violationsFrom]
    simp only [List.nil_append, eq_comm (a := v.index)]

end Runbook.Workflow
