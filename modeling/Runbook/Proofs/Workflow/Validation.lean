import Runbook.Workflow.Validation

/-!
# What valid workflows promise

A workflow is valid just if it has steps, each of them is sound by itself, and their names differ
(`Workflow.validate_iff`). A run relies on the last of these: what steps capture is kept by their
names. None of the three is lost when steps are left out, as long as one remains
(`Workflow.validate_of_sublist`).
-/

namespace Runbook.Workflow

/-- What the validation asks of a step by itself. -/
structure IsSound (step : Step) : Prop where
  /-- The step has a name. -/
  name : Text.isBlank step.name = false
  /-- The step has a type. -/
  type : Text.isBlank step.type = false
  /-- A loop has an input and a name for its items. -/
  loop : ∀ loop, step.loop = some loop →
    Text.isBlank loop.inputData = false ∧ Text.isBlank loop.itemName = false

theorem loopProblems_eq_nil_iff {index : Nat} {step : Step} :
    loopProblems index step = [] ↔ ∀ loop, step.loop = some loop →
      Text.isBlank loop.inputData = false ∧ Text.isBlank loop.itemName = false := by
  unfold loopProblems
  cases step.loop with
  | none => simp
  | some loop =>
    cases Text.isBlank loop.inputData <;> cases Text.isBlank loop.itemName <;> simp_all

theorem namedStepProblems_eq_nil_iff {seen : List String} {index : Nat} {step : Step} :
    namedStepProblems seen index step = [] ↔
      step.name ∉ seen ∧ Text.isBlank step.type = false ∧ loopProblems index step = [] := by
  unfold namedStepProblems
  rw [List.append_eq_nil_iff, List.append_eq_nil_iff, and_assoc]
  refine and_congr ?_ (and_congr ?_ Iff.rfl)
  · by_cases h : step.name ∈ seen <;> simp [h]
  · cases Text.isBlank step.type <;> simp

/-- Steps are without problems just if each is sound by itself and has a name of its own, which no
earlier step has. -/
theorem stepProblems_eq_nil_iff {seen : List String} {index : Nat} {steps : List Step} :
    stepProblems seen index steps = [] ↔
      (∀ step ∈ steps, IsSound step) ∧ (∀ step ∈ steps, step.name ∉ seen) ∧
        (steps.map Step.name).Nodup := by
  induction steps generalizing seen index with
  | nil => simp [stepProblems]
  | cons step steps ih =>
    rw [stepProblems]
    cases hname : Text.isBlank step.name with
    | true =>
      -- A step without a name is reported, and it is not sound.
      refine iff_of_false (by simp) fun h => ?_
      have hsound := (h.1 step List.mem_cons_self).name
      cases hname.symm.trans hsound
    | false =>
      have hsound : IsSound step ↔ Text.isBlank step.type = false ∧ loopProblems index step = [] :=
        ⟨fun h => ⟨h.type, loopProblems_eq_nil_iff.mpr h.loop⟩,
          fun h => ⟨hname, h.1, loopProblems_eq_nil_iff.mp h.2⟩⟩
      simp only [Bool.false_eq_true, if_false, List.append_eq_nil_iff,
        namedStepProblems_eq_nil_iff, ih, ← hsound, List.forall_mem_cons, List.map_cons,
        List.nodup_cons]
      -- The later names differ from those seen and from the name of this step.
      have hlater : (∀ s ∈ steps, s.name ∉ step.name :: seen) ↔
          step.name ∉ steps.map Step.name ∧ ∀ s ∈ steps, s.name ∉ seen := by
        simp only [List.mem_cons, not_or, List.mem_map, not_exists, not_and]
        exact ⟨fun h => ⟨fun s hs => (h s hs).1, fun s hs => (h s hs).2⟩,
          fun h s hs => ⟨h.1 s hs, h.2 s hs⟩⟩
      rw [hlater]
      constructor
      · rintro ⟨⟨hfresh, hstep⟩, hsteps, ⟨hdiffer, hseen⟩, hnames⟩
        exact ⟨⟨hstep, hsteps⟩, ⟨hfresh, hseen⟩, hdiffer, hnames⟩
      · rintro ⟨⟨hstep, hsteps⟩, ⟨hfresh, hseen⟩, hdiffer, hnames⟩
        exact ⟨⟨hfresh, hstep⟩, hsteps, ⟨hdiffer, hseen⟩, hnames⟩

/-- A workflow is accepted just if it has no problems. -/
theorem validate_eq_ok_iff {w : Workflow} : w.validate = .ok () ↔ w.problems = [] := by
  unfold validate
  cases w.problems with
  | nil => simp
  | cons problem problems => simp

/-- A workflow is valid just if it has steps, each is sound by itself, and their names differ. -/
theorem validate_iff {w : Workflow} :
    w.validate = .ok () ↔
      w.steps ≠ [] ∧ (∀ step ∈ w.steps, IsSound step) ∧ (w.steps.map Step.name).Nodup := by
  rw [validate_eq_ok_iff, problems]
  split
  case isTrue hempty => simp [List.isEmpty_iff.mp hempty]
  case isFalse hne => simp [stepProblems_eq_nil_iff, mt List.isEmpty_iff.mpr hne]

/-- The steps of a valid workflow have different names. -/
theorem nodup_names {w : Workflow} (h : w.validate = .ok ()) :
    (w.steps.map Step.name).Nodup :=
  (validate_iff.mp h).2.2

/-- A valid workflow stays valid if some of its steps are left out, but not all. -/
theorem validate_of_sublist {w : Workflow} (h : w.validate = .ok ()) {steps : List Step}
    (hsteps : steps.Sublist w.steps) (hne : steps ≠ []) :
    ({ w with steps := steps } : Workflow).validate = .ok () := by
  obtain ⟨-, hsound, hnames⟩ := validate_iff.mp h
  exact validate_iff.mpr
    ⟨hne, fun step hstep => hsound step (hsteps.mem hstep), hnames.sublist (hsteps.map _)⟩

/-- Where steps have different names, a name tells their places apart. -/
theorem split_unique {before before' after after' : List Step} {step step' : Step}
    (hnames : ((before ++ step :: after).map Step.name).Nodup)
    (hsplit : before ++ step :: after = before' ++ step' :: after')
    (hname : step.name = step'.name) : before = before' ∧ step = step' ∧ after = after' := by
  -- If one split came earlier, its step would stand among the others' earlier ones under the same
  -- name.
  induction before generalizing before' with
  | nil =>
    cases before' with
    | nil =>
      obtain ⟨rfl, rfl⟩ := List.cons.inj hsplit
      exact ⟨rfl, rfl, rfl⟩
    | cons first before' =>
      obtain ⟨rfl, rfl⟩ := List.cons.inj hsplit
      have hfresh := (List.nodup_cons.mp hnames).1
      exact absurd (by simp [hname]) hfresh
  | cons first before ih =>
    cases before' with
    | nil =>
      obtain ⟨rfl, rfl⟩ := List.cons.inj hsplit
      have hfresh := (List.nodup_cons.mp hnames).1
      exact absurd (by simp [← hname]) hfresh
    | cons first' before' =>
      obtain ⟨rfl, hrest⟩ := List.cons.inj hsplit
      obtain ⟨rfl, rfl, rfl⟩ := ih (List.nodup_cons.mp hnames).2 hrest
      exact ⟨rfl, rfl, rfl⟩

end Runbook.Workflow
