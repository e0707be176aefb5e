import Runbook.Proofs.Run.Request
import Runbook.Proofs.Workflow.Validation
import Runbook.Run.Engine

/-!
# Turns

A run gives its steps their turns in order. The module says what one turn adds to a run, and it
introduces the states that a run comes through, along which all invariants of runs are proved:

* `RunState.Extends`: the calls, results and record that a turn adds, and whether it ends the run;
* `Workflow.Reaches`: a run has given the first steps their turns and none of them stopped;
* `Workflow.runValid_ends`: a run either reaches its end or stops in the turn of some step.
-/

namespace Runbook

variable {σ : Type}

/-- What one turn adds to a run. -/
structure RunState.Extends (state next : RunState σ) (calls : List Call) (results : Results)
    (record : Record) (stop : Option Stop) : Prop where
  /-- The calls of the turn come last. -/
  calls : next.calls = state.calls ++ calls
  /-- What is captured comes last. -/
  results : next.results = state.results ++ results
  /-- The record of the step comes last. -/
  records : next.records = state.records ++ [record]
  /-- The run has ended, or it goes on. -/
  stop : next.stop = stop

namespace Record

/-- A captured record does not tell where it stood before. -/
theorem Moved.capture {r r' : Record} (h : r.Moved r') (e : Execution) :
    r'.capture e = r.capture e := by
  obtain ⟨_, -, rfl⟩ := h
  rfl

/-- The record of a step that has begun and then stopped is not captured. -/
theorem Moved.status_stopped_ne {step : Step} {record : Record}
    (h : (Record.initial step).Moved record) (stop : Stop) :
    (record.stopped stop).status ≠ .captured := by
  obtain ⟨status, hstatus, rfl⟩ := h
  cases stop with
  | failed failure => simp [Record.stopped]
  | broken fault =>
    -- Nothing is written into the record, which stands where the step has moved it.
    intro hcaptured
    have hcaptured : status = .captured := hcaptured
    subst hcaptured
    simp [Record.initial] at hstatus

end Record

namespace Workflow

/-- What a step is run with when its turn comes: the records before it are settled, those after it
have not been touched. -/
def turnSetting (registry : Registry σ) (directory : Option Path) (state : RunState σ)
    (later : List Step) : Setting σ :=
  { registry := registry
    workflowDirectory := directory
    statuses := fun current =>
      some ((state.records ++ current :: later.map Record.initial).map Record.status) }

/-- How far a step has come when its turn begins. -/
def turnStart (state : RunState σ) (step : Step) : Progress σ :=
  { world := state.world, record := Record.initial step }

/-- What comes of the requests that a step makes in its turn. -/
abbrev turnService (registry : Registry σ) (directory : Option Path) (state : RunState σ)
    (step : Step) : Service σ Execution :=
  step.perform registry Request.isShowable directory state.results state.world

section Turn

variable (registry : Registry σ) (directory : Option Path) (state : RunState σ) (step : Step)
  (later : List Step)

/-- Running a step in its turn does what performing it says. -/
theorem turn_describes :
    (turnService registry directory state step).Describes
      (turnSetting registry directory state later) (turnStart state step)
      (step.run (turnSetting registry directory state later) state.results
        (turnStart state step)) :=
  step.run_describes (turnSetting registry directory state later) state.results
    (turnStart state step)

/-- The calls that are made in the turn of a step. -/
def turnCalls : List Call :=
  (turnSetting registry directory state later).callsOf (Record.initial step)
    (turnService registry directory state step).made

/-- A disabled step is skipped. -/
theorem turn_disabled (henabled : step.enabled = false) :
    state.Extends (turn registry directory state step later) [] []
        { Record.initial step with status := .skipped } state.stop ∧
      (turn registry directory state step later).world = state.world := by
  simp only [turn, henabled]
  exact ⟨⟨by simp, by simp, rfl, rfl⟩, rfl⟩

/-- A step that comes to its end is captured. -/
theorem turn_captured (henabled : step.enabled = true) {execution : Execution}
    (h : (turnService registry directory state step).outcome = .ok execution) :
    state.Extends (turn registry directory state step later)
        (turnCalls registry directory state step later) [(step.name, execution.outputs)]
        ((Record.initial step).capture execution) state.stop ∧
      (turn registry directory state step later).world =
        (turnService registry directory state step).world := by
  have hrun := turn_describes registry directory state step later
  rcases hr : step.run (turnSetting registry directory state later) state.results
    (turnStart state step) with ⟨outcome, p⟩
  rw [hr] at hrun
  have houtcome : outcome = .ok execution := hrun.outcome.trans h
  subst houtcome
  have hcalls : p.calls = turnCalls registry directory state step later := hrun.calls
  simp only [turnSetting, turnStart] at hr
  simp only [turn, henabled, hr, if_true]
  -- Where the record stood before the capture does not show in it.
  have hrecord := congrArg (fun r => state.records ++ [r]) (hrun.record.capture execution)
  exact ⟨⟨by rw [hcalls], rfl, hrecord, rfl⟩, hrun.world⟩

/-- A step that stops ends the run. -/
theorem turn_stopped (henabled : step.enabled = true) {stop : Stop}
    (h : (turnService registry directory state step).outcome = .error stop) :
    ∃ record, (Record.initial step).Moved record ∧
      state.Extends (turn registry directory state step later)
        (turnCalls registry directory state step later) [] (record.stopped stop) (some stop) ∧
      (turn registry directory state step later).world =
        (turnService registry directory state step).world := by
  have hrun := turn_describes registry directory state step later
  rcases hr : step.run (turnSetting registry directory state later) state.results
    (turnStart state step) with ⟨outcome, p⟩
  rw [hr] at hrun
  have houtcome : outcome = .error stop := hrun.outcome.trans h
  subst houtcome
  have hcalls : p.calls = turnCalls registry directory state step later := hrun.calls
  refine ⟨p.record, hrun.record, ?_⟩
  simp only [turnSetting, turnStart] at hr
  simp only [turn, henabled, hr, if_true]
  exact ⟨⟨by rw [hcalls], by simp, rfl, rfl⟩, hrun.world⟩

/-- A turn after which the run goes on skips the step or captures what it comes to. -/
theorem turn_goes_on (hstate : state.stop = none)
    (hnext : (turn registry directory state step later).stop = none) :
    (step.enabled = false ∧
      state.Extends (turn registry directory state step later) [] []
        { Record.initial step with status := .skipped } none ∧
      (turn registry directory state step later).world = state.world) ∨
    (step.enabled = true ∧ ∃ execution,
      (turnService registry directory state step).outcome = .ok execution ∧
      state.Extends (turn registry directory state step later)
        (turnCalls registry directory state step later) [(step.name, execution.outputs)]
        ((Record.initial step).capture execution) none ∧
      (turn registry directory state step later).world =
        (turnService registry directory state step).world) := by
  cases henabled : step.enabled with
  | false =>
    rw [← hstate]
    exact .inl ⟨rfl, turn_disabled registry directory state step later henabled⟩
  | true =>
    cases houtcome : (turnService registry directory state step).outcome with
    | ok execution =>
      rw [← hstate]
      have hturn := turn_captured registry directory state step later henabled houtcome
      exact .inr ⟨rfl, execution, rfl, hturn⟩
    | error stop =>
      -- The turn would have ended the run.
      obtain ⟨_, _, hextends, _⟩ :=
        turn_stopped registry directory state step later henabled houtcome
      rw [hextends.stop] at hnext
      cases hnext

/-- A turn that ends a run is that of an enabled step that stops. -/
theorem turn_ends (hstate : state.stop = none) {stop : Stop}
    (hnext : (turn registry directory state step later).stop = some stop) :
    step.enabled = true ∧ (turnService registry directory state step).outcome = .error stop ∧
      ∃ record, (Record.initial step).Moved record ∧
        state.Extends (turn registry directory state step later)
          (turnCalls registry directory state step later) [] (record.stopped stop) (some stop) ∧
        (turn registry directory state step later).world =
          (turnService registry directory state step).world := by
  cases henabled : step.enabled with
  | false =>
    rw [(turn_disabled registry directory state step later henabled).1.stop, hstate] at hnext
    cases hnext
  | true =>
    cases houtcome : (turnService registry directory state step).outcome with
    | ok execution =>
      have hturn := turn_captured registry directory state step later henabled houtcome
      rw [hturn.1.stop, hstate] at hnext
      cases hnext
    | error found =>
      obtain ⟨record, hmoved, hextends, hworld⟩ :=
        turn_stopped registry directory state step later henabled houtcome
      have hfound : found = stop := Option.some.inj (hextends.stop.symm.trans hnext)
      subst hfound
      exact ⟨rfl, rfl, record, hmoved, hextends, hworld⟩

/-- What a step asks for in its turn are the calls that it makes while it runs. -/
theorem calls_of_run :
    (step.run (turnSetting registry directory state later) state.results
      (turnStart state step)).2.calls = turnCalls registry directory state step later :=
  (turn_describes registry directory state step later).calls

end Turn

/-! ## The states of a run -/

/-- The state that a run begins in. -/
def start (w : Workflow) (world : σ) : RunState σ :=
  { world := world, log := Log.info s!"Running workflow with {w.steps.length} steps" }

/-- The run that has come to its last state. -/
def close (w : Workflow) (last : RunState σ) : Run σ :=
  { world := last.world
    results := last.results
    calls := last.calls
    log := last.log
    stop := last.stop
    summary :=
      { workflowPath := w.sourcePath.map Path.text
        status := endStatus last.stop
        steps := last.records
        error := endError last.stop } }

/-- The run has come to a state in which the steps `before` have had their turns and none of them
has stopped; the steps `after` are still to come. -/
inductive Reaches (w : Workflow) (registry : Registry σ) (world : σ) :
    List Step → RunState σ → List Step → Prop
  | start : Reaches w registry world [] (w.start world) w.steps
  | next {before : List Step} {state : RunState σ} {step : Step} {after : List Step} :
      Reaches w registry world before state (step :: after) →
      (turn registry w.baseDirectory state step after).stop = none →
      Reaches w registry world (before ++ [step])
        (turn registry w.baseDirectory state step after) after

section Reaches

variable {w : Workflow} {registry : Registry σ} {world : σ} {before after : List Step}
  {state : RunState σ}

theorem Reaches.steps_eq (h : Reaches w registry world before state after) :
    w.steps = before ++ after := by
  induction h with
  | start => rfl
  | next _ _ ih => simp [ih]

theorem Reaches.stop_eq (h : Reaches w registry world before state after) :
    state.stop = none := by
  induction h with
  | start => rfl
  | next _ hstop _ => exact hstop

/-- The state in which a run ends that stops in the turn of a step. -/
def stoppedState (w : Workflow) (registry : Registry σ) (state : RunState σ) (step : Step)
    (after : List Step) : RunState σ :=
  let next := turn registry w.baseDirectory state step after
  { next with records := next.records ++ after.map Record.initial }

/-- Where no turn stops the run, the next one follows. -/
theorem turns_of_goes_on {directory : Option Path} {step : Step} {later : List Step}
    (h : (turn registry directory state step later).stop = none) :
    turns registry directory state (step :: later) =
      turns registry directory (turn registry directory state step later) later := by
  rw [turns]
  simp only [h]

/-- Where a turn stops the run, the steps after it keep their first records. -/
theorem turns_of_stops {directory : Option Path} {step : Step} {later : List Step} {stop : Stop}
    (h : (turn registry directory state step later).stop = some stop) :
    turns registry directory state (step :: later) =
      { turn registry directory state step later with
        records := (turn registry directory state step later).records ++
          later.map Record.initial } := by
  rw [turns]
  simp only [h]

/-- From every state that a run comes through, it goes on to its end or stops in some turn. -/
theorem Reaches.turns_ends (h : Reaches w registry world before state after) :
    Reaches w registry world w.steps (turns registry w.baseDirectory state after) [] ∨
      ∃ before' state' step after' stop,
        Reaches w registry world before' state' (step :: after') ∧
        (turn registry w.baseDirectory state' step after').stop = some stop ∧
        turns registry w.baseDirectory state after =
          stoppedState w registry state' step after' := by
  -- The induction is on the steps to come; those that had their turns grow with the state.
  induction after generalizing before state with
  | nil =>
    left
    rw [h.steps_eq, List.append_nil]
    exact h
  | cons step after ih =>
    cases hstop : (turn registry w.baseDirectory state step after).stop with
    | none =>
      rw [turns_of_goes_on hstop]
      exact ih (h.next hstop)
    | some stop => exact .inr ⟨before, state, step, after, stop, h, hstop, turns_of_stops hstop⟩

/-- A run reaches the end of the workflow or stops in the turn of some step. -/
theorem runValid_ends (w : Workflow) (registry : Registry σ) (world : σ) :
    (∃ state, Reaches w registry world w.steps state [] ∧
        w.runValid registry world = w.close state) ∨
      ∃ before state step after stop,
        Reaches w registry world before state (step :: after) ∧
        (turn registry w.baseDirectory state step after).stop = some stop ∧
        w.runValid registry world = w.close (stoppedState w registry state step after) := by
  have hrun : w.runValid registry world =
      w.close (turns registry w.baseDirectory (w.start world) w.steps) := rfl
  have hstart : Reaches w registry world [] (w.start world) w.steps := .start
  rcases hstart.turns_ends with h | ⟨before, state, step, after, stop, h, hstop, hturns⟩
  · exact .inl ⟨_, h, hrun⟩
  · exact .inr ⟨before, state, step, after, stop, h, hstop, by rw [hrun, hturns]⟩

end Reaches

/-- A valid workflow is run. -/
theorem run_of_validate {w : Workflow} (h : w.validate = .ok ()) (registry : Registry σ)
    (world : σ) : w.run registry world = .ok (w.runValid registry world) := by
  rw [run, validate_eq_ok_iff.mp h]

/-- What is run is a valid workflow. -/
theorem run_eq_ok_iff {w : Workflow} {registry : Registry σ} {world : σ} {run : Run σ} :
    w.run registry world = .ok run ↔
      w.validate = .ok () ∧ w.runValid registry world = run := by
  constructor
  · intro h
    have hvalid : w.validate = .ok () := by
      refine validate_eq_ok_iff.mpr ?_
      unfold Workflow.run at h
      split at h
      case h_1 hnone => exact hnone
      case h_2 => cases h
    exact ⟨hvalid, Except.ok.inj ((run_of_validate hvalid registry world).symm.trans h)⟩
  · rintro ⟨hvalid, rfl⟩
    exact run_of_validate hvalid registry world

end Workflow

end Runbook
