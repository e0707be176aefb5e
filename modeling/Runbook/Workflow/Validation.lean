import Runbook.Text.Blank
import Runbook.Text.Split
import Runbook.Workflow.Basic

/-!
# Valid workflows

The problems of a workflow that keep it from running: no steps, a blank name or one that an earlier
step has, a blank type, a loop without input or item name. All problems are reported, in step order.
-/

namespace Runbook

/-- A problem of a workflow definition. -/
structure Problem where
  /-- The wording. -/
  message : String
  /-- The place in the definition. -/
  path : String := ""
  /-- The exit code that the problem leads to. -/
  exitCode : Nat := 2
  deriving DecidableEq, Repr, Inhabited

/-- The wording of several problems, a line for each. -/
def Problem.summary (problems : List Problem) : String :=
  Text.join "\n" (problems.map fun p => s!"Validation error: {p.message}")

/-- The exit code of a workflow that has problems. -/
def Problem.combinedExitCode : Nat := 2

namespace Workflow

/-- The place of a field of the step at a position. -/
def fieldPath (index : Nat) (field : String) : String :=
  s!"Steps[{index}].{field}"

/-- The problems of a step's loop. -/
def loopProblems (index : Nat) (step : Step) : List Problem :=
  match step.loop with
  | none => []
  | some loop =>
    (if Text.isBlank loop.inputData then
      [⟨s!"step {step.name} loop is missing input_data", fieldPath index "loop.input_data", 2⟩]
    else []) ++
    (if Text.isBlank loop.itemName then
      [⟨s!"step {step.name} loop is missing item_name", fieldPath index "loop.item_name", 2⟩]
    else [])

/-- The problems of a step with a name, of which `seen` are the names of earlier steps. -/
def namedStepProblems (seen : List String) (index : Nat) (step : Step) : List Problem :=
  (if seen.contains step.name then
    [⟨s!"duplicate step name detected: {step.name}", fieldPath index "Name", 2⟩]
  else []) ++
  (if Text.isBlank step.type then
    [⟨s!"step {step.name} is missing a Type", fieldPath index "Type", 2⟩]
  else []) ++
  loopProblems index step

/-- The problems of steps from a position on, of which `seen` are the names of earlier steps. A step
without a name is not examined further. -/
def stepProblems (seen : List String) : Nat → List Step → List Problem
  | _, [] => []
  | index, step :: steps =>
    if Text.isBlank step.name then
      ⟨s!"step {index} is missing a Name", fieldPath index "Name", 2⟩ ::
        stepProblems seen (index + 1) steps
    else
      namedStepProblems seen index step ++ stepProblems (step.name :: seen) (index + 1) steps

/-- All problems of a workflow. -/
def problems (w : Workflow) : List Problem :=
  if w.steps.isEmpty then [⟨"workflow contains no steps", "", 2⟩]
  else stepProblems [] 0 w.steps

/-- Accepts a workflow that has no problems. -/
def validate (w : Workflow) : Except (List Problem) Unit :=
  match w.problems with
  | [] => .ok ()
  | problems => .error problems

end Workflow

/-- Examines workflows one after the other. -/
structure Validator where
  /-- The problems of the workflow that was examined last. -/
  problems : List Problem := []
  deriving Repr

namespace Validator

/-- Finds all problems of a workflow; those found before are forgotten. -/
def collect (_ : Validator) (w : Workflow) : Validator × List Problem :=
  (⟨w.problems⟩, w.problems)

end Validator

end Runbook
