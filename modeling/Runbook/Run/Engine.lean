import Runbook.Run.Step
import Runbook.Workflow.Validation

/-!
# Running a workflow

The steps of a workflow run one after the other, in order. A step sees what the steps before it have
captured; a disabled step is skipped; the first step that stops ends the run.
-/

namespace Runbook

/-- How far a run has come. -/
structure RunState (σ : Type) where
  /-- The state of the world. -/
  world : σ
  /-- What has been captured. -/
  results : Results := []
  /-- The records of the steps that have had their turn. -/
  records : List Record := []
  /-- The calls so far. -/
  calls : List Call := []
  /-- What was logged so far. -/
  log : Log := []
  /-- Why the run ended early, if it did. -/
  stop : Option Stop := none

/-- A run that has ended. -/
structure Run (σ : Type) where
  /-- The state of the world. -/
  world : σ
  /-- What has been captured. -/
  results : Results
  /-- The summary. -/
  summary : Summary
  /-- The calls in order. -/
  calls : List Call
  /-- What was logged. -/
  log : Log
  /-- Why the run ended early, if it did. -/
  stop : Option Stop

/-- The record of a step whose turn has not come. -/
def Record.initial (s : Step) : Record :=
  { name := s.name, type := s.type, enabled := s.enabled }

/-- The record of a step that captured its output. -/
def Record.capture (r : Record) (e : Execution) : Record :=
  { r with
    status := .captured
    outputs := e.outputs
    duration := some 0
    loopIterations := e.iterations.map Int.ofNat }

/-- The record of a step that stopped; only a failure is recorded. -/
def Record.stopped (r : Record) : Stop → Record
  | .failed failure => { r with status := .failed, error := some failure.cause.message }
  | .broken _ => r

namespace Workflow

variable {σ : Type}

/-- Gives one step its turn; `later` are the steps after it. -/
def turn (registry : Registry σ) (directory : Option Path) (state : RunState σ) (step : Step)
    (later : List Step) : RunState σ :=
  if step.enabled then
    let setting : Setting σ :=
      { registry := registry
        workflowDirectory := directory
        statuses := fun current =>
          some ((state.records ++ current :: later.map Record.initial).map Record.status) }
    let begun : Progress σ := { world := state.world, record := Record.initial step }
    let (outcome, p) := step.run setting state.results begun
    let log := state.log ++
      Log.info s!"Executing step '{step.name}' ({step.operationName})" ++ p.log
    match outcome with
    | .ok execution =>
      { state with
        world := p.world
        results := state.results ++ [(step.name, execution.outputs)]
        records := state.records ++ [p.record.capture execution]
        calls := state.calls ++ p.calls
        log := log ++ Log.info s!"Step '{step.name}' completed in 0 ms" }
    | .error stop =>
      let ending := match stop with
        | .failed failure => Log.error s!"Workflow stopped: {failure.message}"
        -- No step answers for a number that cannot be read or shown.
        | .broken _ => []
      { state with
        world := p.world
        records := state.records ++ [p.record.stopped stop]
        calls := state.calls ++ p.calls
        log := log ++ ending
        stop := some stop }
  else
    { state with
      records := state.records ++ [{ Record.initial step with status := .skipped }]
      log := state.log ++ Log.info s!"Skipping disabled step: {step.name}" }

/-- Gives steps their turns up to the first that stops; the others keep their first record. -/
def turns (registry : Registry σ) (directory : Option Path) :
    RunState σ → List Step → RunState σ
  | state, [] => state
  | state, step :: later =>
    let next := turn registry directory state step later
    match next.stop with
    | none => turns registry directory next later
    -- The steps that are left keep the record they began with.
    | some _ => { next with records := next.records ++ later.map Record.initial }

/-- Where a run stands that has ended so. -/
def endStatus : Option Stop → RunStatus
  | none => .completed
  | some (.failed _) => .failed
  | some (.broken _) => .running

/-- What is said of a run that has ended so. -/
def endError : Option Stop → Option String
  | some (.failed failure) => some failure.message
  | _ => none

/-- Runs a workflow without problems in a world. -/
def runValid (w : Workflow) (registry : Registry σ) (world : σ) : Run σ :=
  let start : RunState σ :=
    { world := world, log := Log.info s!"Running workflow with {w.steps.length} steps" }
  let last := turns registry w.baseDirectory start w.steps
  { world := last.world
    results := last.results
    calls := last.calls
    log := last.log
    stop := last.stop
    summary :=
      { workflowPath := w.sourcePath.map Path.text
        status := endStatus last.stop
        steps := last.records
        error := endError last.stop } }

/-- Runs a workflow in a world, unless it has problems. -/
def run (w : Workflow) (registry : Registry σ) (world : σ) : Except (List Problem) (Run σ) :=
  match w.problems with
  | [] => .ok (w.runValid registry world)
  | problems => .error problems

end Workflow

/-- What the runs of one workflow leave behind: the results and the summary of the last one. -/
structure Session where
  /-- The results of the last run. -/
  results : Results := []
  /-- The summary of the last run. -/
  summary : Option Summary := none
  deriving Repr

/-- Runs a workflow again; a workflow with problems leaves everything as it was. -/
def Session.execute {σ : Type} (session : Session) (w : Workflow) (registry : Registry σ)
    (world : σ) : Session × Except (List Problem) (Run σ) :=
  match w.run registry world with
  | .error problems => (session, .error problems)
  | .ok run => (⟨run.results, some run.summary⟩, .ok run)

end Runbook
