import Runbook.Delivery.Write

/-!
# Steps that have captured nothing

Delivering passes over a step without results: it leaves a note in the log, and neither the files
nor the report show it. So such steps may as well be left out of the workflow.

The main result is `Delivery.deliver_filter`.
-/

namespace Runbook.Delivery

/-- Two deliveries have come equally far. Their logs may differ. -/
structure Progress.Alike (p p' : Progress) : Prop where
  /-- The files are the same. -/
  tree : p'.tree = p.tree
  /-- The reports are the same. -/
  report : p'.report = p.report

/-- Two deliveries have come to the same end. -/
structure EndAlike (result result' : Progress × Option WriteError) : Prop where
  /-- They have come equally far. -/
  progress : result.1.Alike result'.1
  /-- Both are complete, or they were broken off for the same reason. -/
  error : result'.2 = result.2

variable {w : Workflow} {results : Results} {step : Step} {p p' : Progress}

/-- What a step adds depends on the files and the report alone. -/
theorem deliverStep_alike (h : p.Alike p') :
    EndAlike (deliverStep w results step p) (deliverStep w results step p') := by
  unfold deliverStep
  cases Item.of results step with
  | undeclared => exact ⟨h, rfl⟩
  | missing => exact ⟨⟨h.tree, h.report⟩, rfl⟩
  | blank => exact ⟨⟨h.tree, h.report⟩, rfl⟩
  | output target captured =>
    simp only [h.tree]
    rcases writeFile p.tree step.name (w.destination target) (render step captured) with
      ⟨tree, _ | ⟨failure⟩ | _⟩
    · exact ⟨⟨rfl, by simp only [h.report]⟩, rfl⟩
    · exact ⟨⟨rfl, by simp only [h.report]⟩, rfl⟩
    · exact ⟨⟨rfl, h.report⟩, rfl⟩

/-- A step without results is passed over. -/
theorem deliverStep_of_absent (h : p.Alike p') (habsent : results.lookup step.name = none) :
    EndAlike (p, none) (deliverStep w results step p') := by
  have hitem : Item.of results step = .undeclared ∨ Item.of results step = .missing := by
    unfold Item.of
    rw [habsent]
    cases step.outputFilePath with
    | none => exact .inl rfl
    | some target => cases Text.isBlank target <;> simp
  unfold deliverStep
  rcases hitem with hitem | hitem <;> rw [hitem]
  · exact ⟨h, rfl⟩
  · exact ⟨⟨h.tree, h.report⟩, rfl⟩

theorem deliverSteps_filter (keep : Step → Bool) {steps : List Step}
    (habsent : ∀ step ∈ steps, keep step = false → results.lookup step.name = none)
    (h : p.Alike p') :
    EndAlike (deliverSteps w results (steps.filter keep) p) (deliverSteps w results steps p') := by
  induction steps generalizing p p' with
  | nil => exact ⟨h, rfl⟩
  | cons step steps ih =>
    obtain ⟨hstep, hsteps⟩ := List.forall_mem_cons.mp habsent
    rw [List.filter_cons]
    split
    case isTrue =>
      have halike : EndAlike (deliverStep w results step p) (deliverStep w results step p') :=
        deliverStep_alike h
      rw [deliverSteps, deliverSteps]
      rcases hp : deliverStep w results step p with ⟨q, _ | e⟩ <;>
        rcases hp' : deliverStep w results step p' with ⟨q', _ | e'⟩ <;>
        rw [hp, hp'] at halike
      · exact ih hsteps halike.progress
      · cases halike.error
      · cases halike.error
      · exact halike
    case isFalse hdropped =>
      -- The step is passed over in the longer list, so that both deliveries go on alike.
      have halike : EndAlike (p, none) (deliverStep w results step p') :=
        deliverStep_of_absent h (hstep (Bool.eq_false_iff.mpr hdropped))
      rw [deliverSteps]
      rcases hp' : deliverStep w results step p' with ⟨q', _ | e'⟩ <;> rw [hp'] at halike
      · exact ih hsteps halike.progress
      · cases halike.error

/-- Of the workflow itself, delivering some steps uses the place of its document alone. -/
theorem deliverSteps_with_steps (w : Workflow) (all steps : List Step) (p : Progress) :
    deliverSteps { w with steps := all } results steps p = deliverSteps w results steps p := by
  induction steps generalizing p with
  | nil => rfl
  | cons step steps ih =>
    rw [deliverSteps, deliverSteps]
    simp only [ih]
    rfl

/-- Steps without results may be left out of a workflow that is delivered. -/
theorem deliver_filter (w : Workflow) (keep : Step → Bool)
    (habsent : ∀ step ∈ w.steps, keep step = false → results.lookup step.name = none)
    (tree : FileTree) :
    EndAlike (deliver { w with steps := w.steps.filter keep } results tree)
      (deliver w results tree) := by
  unfold deliver
  rw [deliverSteps_with_steps]
  exact deliverSteps_filter keep habsent ⟨rfl, rfl⟩

end Runbook.Delivery
