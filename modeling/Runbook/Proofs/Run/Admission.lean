import Mathlib.Data.List.Nodup
import Runbook.Proofs.Run.Turn
import Runbook.Proofs.Workflow.Violation

/-!
# Which workflows are executed

A workflow is executed just if it is valid, and that is said here without going through its steps in
order: it has steps, all of them have names and no two the same one, and no step lacks a type or a
part of its loop. Nothing is called for a workflow that is not valid, nothing that earlier runs left
behind is lost, and what is reported are the violations of its rules.

The module introduces `Workflow.Invalid`: the ways in which a workflow is not valid. The main result
is `Workflow.execute_gated`.
-/

namespace Runbook.Workflow

/-- The ways in which a workflow is not valid. -/
inductive Invalid (w : Workflow) : Prop
  /-- There are no steps. -/
  | noSteps (h : w.steps = [])
  /-- A step has no name. -/
  | blankName {step : Step} (hstep : step ∈ w.steps) (h : Text.isBlank step.name = true)
  /-- Two steps have the same name. -/
  | sameName {i j : Nat} {first second : Step} (hne : i ≠ j) (hfirst : w.steps[i]? = some first)
      (hsecond : w.steps[j]? = some second) (h : first.name = second.name)
  /-- A step with a name has no type. -/
  | blankType {step : Step} (hstep : step ∈ w.steps) (hname : Text.isBlank step.name = false)
      (h : Text.isBlank step.type = true)
  /-- The loop of a step with a name has no input, or no name for its items. -/
  | blankLoop {step : Step} {loop : Loop} (hstep : step ∈ w.steps)
      (hname : Text.isBlank step.name = false) (hloop : step.loop = some loop)
      (h : Text.isBlank loop.inputData = true ∨ Text.isBlank loop.itemName = true)

variable {w : Workflow}

/-- Names are repeated just if two positions have the same one. -/
theorem not_nodup_names_iff :
    ¬(w.steps.map Step.name).Nodup ↔ ∃ (i j : Nat) (first second : Step), i < j ∧
      w.steps[i]? = some first ∧ w.steps[j]? = some second ∧ first.name = second.name := by
  rw [List.nodup_iff_getElem?_ne_getElem?]
  push Not
  constructor
  · rintro ⟨i, j, hij, hj, hsame⟩
    rw [List.length_map] at hj
    have hi : i < w.steps.length := Nat.lt_trans hij hj
    refine ⟨i, j, w.steps[i], w.steps[j], hij, List.getElem?_eq_getElem hi,
      List.getElem?_eq_getElem hj, ?_⟩
    simpa [hi, hj] using hsame
  · rintro ⟨i, j, first, second, hij, hfirst, hsecond, hname⟩
    obtain ⟨hj, -⟩ := List.getElem?_eq_some_iff.mp hsecond
    refine ⟨i, j, hij, by rwa [List.length_map], ?_⟩
    rw [List.getElem?_map, List.getElem?_map, hfirst, hsecond, Option.map_some, Option.map_some,
      hname]

/-- A step that is not sound by itself makes the workflow invalid. -/
theorem invalid_of_not_isSound {step : Step} (hstep : step ∈ w.steps) (h : ¬IsSound step) :
    w.Invalid := by
  cases hname : Text.isBlank step.name with
  | true => exact .blankName hstep hname
  | false =>
    cases htype : Text.isBlank step.type with
    | true => exact .blankType hstep hname htype
    | false =>
      -- With a name and a type, only the loop is left.
      by_contra hvalid
      refine h ⟨hname, htype, fun loop hloop => ?_⟩
      constructor
      · by_contra hinput
        exact hvalid (.blankLoop hstep hname hloop (.inl (Bool.not_eq_false _ ▸ hinput)))
      · by_contra hitem
        exact hvalid (.blankLoop hstep hname hloop (.inr (Bool.not_eq_false _ ▸ hitem)))

/-- A workflow has problems just if it is not valid. -/
theorem problems_ne_nil_iff : w.problems ≠ [] ↔ w.Invalid := by
  rw [Ne, ← validate_eq_ok_iff, validate_iff]
  constructor
  · intro h
    by_cases hsteps : w.steps = []
    · exact .noSteps hsteps
    by_cases hsound : ∀ step ∈ w.steps, IsSound step
    · have hnames : ¬(w.steps.map Step.name).Nodup := fun hnames => h ⟨hsteps, hsound, hnames⟩
      obtain ⟨i, j, first, second, hij, hfirst, hsecond, hname⟩ := not_nodup_names_iff.mp hnames
      exact .sameName (Nat.ne_of_lt hij) hfirst hsecond hname
    · push Not at hsound
      obtain ⟨step, hstep, hunsound⟩ := hsound
      exact invalid_of_not_isSound hstep hunsound
  · rintro hinvalid ⟨hsteps, hsound, hnames⟩
    cases hinvalid with
    | noSteps hnone => exact hsteps hnone
    | blankName hstep hname => cases hname.symm.trans (hsound _ hstep).name
    | @sameName i j first second hne hfirst hsecond hname =>
      rcases Nat.lt_or_gt_of_ne hne with hij | hji
      · exact not_nodup_names_iff.mpr ⟨i, j, first, second, hij, hfirst, hsecond, hname⟩ hnames
      · exact not_nodup_names_iff.mpr ⟨j, i, second, first, hji, hsecond, hfirst, hname.symm⟩
          hnames
    | blankType hstep _ htype => cases htype.symm.trans (hsound _ hstep).type
    | blankLoop hstep _ hloop hblank =>
      obtain ⟨hinput, hitem⟩ := (hsound _ hstep).loop _ hloop
      rcases hblank with hblank | hblank
      · cases hblank.symm.trans hinput
      · cases hblank.symm.trans hitem

/-- A workflow that is not valid is not run: whatever the operations do, the problems of its
definition come back and the session is left as it was. -/
theorem execute_of_invalid {σ : Type} (session : Session) (h : w.Invalid) (registry : Registry σ)
    (world : σ) : session.execute w registry world = (session, .error w.problems) := by
  obtain ⟨problem, problems, hproblems⟩ := List.exists_cons_of_ne_nil (problems_ne_nil_iff.mpr h)
  rw [Session.execute, run, hproblems]

/-- A valid workflow is run. -/
theorem execute_of_valid {σ : Type} (session : Session) (h : ¬w.Invalid) (registry : Registry σ)
    (world : σ) :
    (session.execute w registry world).2 = .ok (w.runValid registry world) := by
  have hproblems : w.problems = [] := not_not.mp (mt problems_ne_nil_iff.mp h)
  rw [Session.execute, run, hproblems]

/-- Execution is gated by validity. A workflow is refused just if it is not valid; then what comes
back is the same whatever operations there are, so that none is called, and the session keeps the
results and the summary of earlier runs. What is reported is what a validator finds, whatever it
examined before: something just if the workflow is not valid, and of a workflow with steps the rules
that are broken, in the order of the steps, each at the position of the step that breaks it, a
repeated name at each step that has the name of an earlier one. -/
theorem execute_gated {σ : Type} (session : Session) (validator : Validator) (w : Workflow)
    (registry : Registry σ) (world : σ) :
    ((∃ problems, (session.execute w registry world).2 = .error problems) ↔ w.Invalid) ∧
      (∀ problems, (session.execute w registry world).2 = .error problems →
        (session.execute w registry world).1 = session ∧ (validator.collect w).2 = problems ∧
          ∀ (registry' : Registry σ) (world' : σ),
            session.execute w registry' world' = session.execute w registry world) ∧
      ((validator.collect w).2 ≠ [] ↔ w.Invalid) ∧
      (w.steps = [] → (validator.collect w).2 = [⟨"workflow contains no steps", "", 2⟩]) ∧
      (w.steps ≠ [] → ∃ violations, Reported w (validator.collect w).2 violations) := by
  have hcollect : (validator.collect w).2 = w.problems := rfl
  have hrefused {problems : List Problem}
      (h : (session.execute w registry world).2 = .error problems) : w.Invalid := by
    by_contra hvalid
    rw [execute_of_valid session hvalid] at h
    cases h
  refine ⟨⟨?_, fun h => ⟨w.problems, ?_⟩⟩, fun problems h => ?_, problems_ne_nil_iff, ?_,
    fun hsteps => ⟨_, reported_problems hsteps⟩⟩
  · rintro ⟨problems, h⟩
    exact hrefused h
  · rw [execute_of_invalid session h]
  · have hinvalid := hrefused h
    have hexecute := execute_of_invalid session hinvalid registry world
    rw [hexecute] at h ⊢
    exact ⟨rfl, Except.error.inj h, execute_of_invalid session hinvalid⟩
  · intro hsteps
    rw [hcollect, problems, hsteps]
    rfl

/-- A workflow with a repeated name, a step without a name and a loop without an input. -/
def clashingWorkflow : Workflow :=
  { steps := [
      { name := "load", type := "#echo", enabled := true },
      { name := " ", type := "" },
      { name := "load", type := "", loop := some ⟨"", "item"⟩ } ] }

/-- All violations are reported, and the session keeps what it had. -/
theorem execute_gated_clashing :
    clashingWorkflow.Invalid ∧
      (⟨[("old", [])], none⟩ : Session).execute clashingWorkflow (⟨[]⟩ : Registry Nat) 0 =
        (⟨[("old", [])], none⟩, .error [
          ⟨"step 1 is missing a Name", "Steps[1].Name", 2⟩,
          ⟨"duplicate step name detected: load", "Steps[2].Name", 2⟩,
          ⟨"step load is missing a Type", "Steps[2].Type", 2⟩,
          ⟨"step load loop is missing input_data", "Steps[2].loop.input_data", 2⟩]) := by
  have hrun : ((⟨[("old", [])], none⟩ : Session).execute clashingWorkflow
      (⟨[]⟩ : Registry Nat) 0).2 = .error clashingWorkflow.problems := rfl
  obtain ⟨hrefused, hkept, -⟩ :=
    execute_gated ⟨[("old", [])], none⟩ {} clashingWorkflow (⟨[]⟩ : Registry Nat) 0
  obtain ⟨hsession, -⟩ := hkept _ hrun
  refine ⟨hrefused.mp ⟨_, hrun⟩, Prod.ext hsession (hrun.trans (congrArg Except.error ?_))⟩
  decide +kernel

end Runbook.Workflow
