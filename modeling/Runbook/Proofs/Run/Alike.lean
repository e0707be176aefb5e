import Runbook.Proofs.Run.Story

/-!
# What a turn depends on

The calls that a step makes show where all steps of the run stand, and so they differ from one
workflow to another. Nothing else does: what a step asks for, what it captures, its record, and the
reason for which it stops are fixed by the results and the world that its turn begins with.

The module introduces:

* `Step.reached`: where the record of a step stands when the step comes to its end or stops;
* `Step.turnRecord`: the record that the turn of a step leaves;
* `RunState.Alike`: two runs, of whatever workflows, have come to the same results, world and
  requests.

The main results are `Workflow.turn_records` and `Workflow.turn_alike`, from which runs of different
workflows are compared turn by turn.
-/

namespace Runbook

variable {σ : Type}

namespace Step

/-- Where the record of a step stands when the step comes to its end or stops: at its parameters if
they cannot be made out, else at its call. -/
def reached (s : Step) (directory : Option Path) (results : Results) : Status :=
  match s.requests directory results with
  | .error _ => .resolving
  | .ok _ => .invoking

section Record

variable (setting : Setting σ) (s : Step)

/-- Whatever comes of a call, the record stands at it. -/
theorem record_of_call (parameters : Parameters) (index : Option Nat) (p : Progress σ) :
    (s.call setting parameters index p).2.record = { p.record with status := .invoking } := by
  unfold call
  cases (Value.map parameters).written? with
  | error fault => rfl
  | ok shown =>
    rcases hinvoke : setting.registry.invoke s.operationName parameters
      ⟨s.name, index, setting.workflowDirectory⟩ p.world with ⟨failure | value, world⟩ <;>
      cases setting.registry.has s.operationName <;>
      simp only [hinvoke, Progress.moveTo, Progress.report, if_true, if_false, Bool.false_eq_true]
    -- What was returned may be no text.
    · cases Capture.toText value s.name <;> rfl
    · cases Capture.toText value s.name <;> rfl

/-- A loop that has items ends at a call, the last one or the first that yields no text. -/
theorem record_of_runItems (loop : Loop) {results : Results} {resolved : Parameters}
    (hresolved : Substitution.inEntries results s.parameters = .ok resolved) (index : Nat)
    {items : List String} (hitems : items ≠ []) (p : Progress σ) :
    (s.runItems loop setting results index items p).2.record =
      { p.record with status := .invoking } := by
  induction items generalizing index p with
  | nil => exact absurd rfl hitems
  | cons item items ih =>
    have happly : loop.applyItem s.parameters item results = .ok (loop.putItem item resolved) := by
      simp [Loop.applyItem, hresolved, Except.map]
    rw [runItems, happly]
    simp only
    have hcall := s.record_of_call setting
      (anchorPaths setting.workflowDirectory
        (s.withDefaultOutputPath (loop.putItem item resolved)))
      (some index) (p.moveTo .resolving)
    rcases hr : s.call setting _ (some index) (p.moveTo .resolving) with ⟨stop | text, q⟩ <;>
      rw [hr] at hcall
    · exact hcall
    · cases items with
      | nil => exact hcall
      | cons next items =>
        -- The later calls leave the record where the first one left it.
        have hrest := ih (index + 1) (List.cons_ne_nil next items) q
        have hq : q.record = { p.record with status := .invoking } := hcall
        rw [hq] at hrest
        simp only
        rcases hnext : s.runItems loop setting results (index + 1) (next :: items) q with
          ⟨stop | texts, q'⟩ <;> rw [hnext] at hrest
        · exact hrest
        · exact hrest

theorem record_of_runSingle (hloop : s.loop = none) (results : Results) (p : Progress σ) :
    (s.runSingle setting results p).2.record =
      { p.record with status := s.reached setting.workflowDirectory results } := by
  rw [reached, requests_of_single hloop, runSingle]
  cases hresolved : Substitution.inEntries results s.parameters with
  | error e => rfl
  | ok parameters =>
    have hcall := s.record_of_call setting
      (anchorPaths setting.workflowDirectory (s.withOutputPath parameters)) none
      (p.moveTo .resolving)
    simp only
    rcases hr : s.call setting _ none (p.moveTo .resolving) with ⟨stop | text, q⟩ <;>
      rw [hr] at hcall
    · exact hcall
    · exact hcall

theorem record_of_runLoop {loop : Loop} (hloop : s.loop = some loop) (results : Results)
    (p : Progress σ) :
    (s.runLoop loop setting results p).2.record =
      { p.record with status := s.reached setting.workflowDirectory results } := by
  rw [reached, requests_of_loop hloop, runLoop]
  cases hitems : loop.discover results with
  | error e =>
    rw [Loop.expand_of_discover hitems]
    rfl
  | ok items =>
    have hne := Loop.discover_ne_nil hitems
    cases hresolved : Substitution.inEntries results s.parameters with
    | error e =>
      -- The parameters come up at the first item, before any call.
      rw [Loop.expand_of_error hitems hresolved]
      obtain ⟨item, rest, rfl⟩ := List.exists_cons_of_ne_nil hne
      have happly := (Loop.applyItem_eq_error_iff loop s.parameters item results e).mpr hresolved
      simp only [runItems, happly]
      rfl
    | ok resolved =>
      rw [Loop.expand_of_ok hitems hresolved]
      have hrecord := s.record_of_runItems setting loop hresolved 0 hne
        ((p.moveTo .resolving).report (loop.discovered items ++
          Log.info s!"Step '{s.name}': looping over {items.length} items as '{loop.itemName}'"))
      simp only
      rcases hr : s.runItems loop setting results 0 items _ with ⟨stop | texts, q⟩ <;>
        rw [hr] at hrecord
      · exact hrecord
      · exact hrecord

/-- Where the record of a step stands does not depend on the other steps. -/
theorem record_of_run (results : Results) (p : Progress σ) :
    (s.run setting results p).2.record =
      { p.record with status := s.reached setting.workflowDirectory results } := by
  unfold run
  cases hloop : s.loop with
  | none => exact s.record_of_runSingle setting hloop results p
  | some loop => exact s.record_of_runLoop setting hloop results p

end Record

/-- The record that the turn of a step leaves. -/
def turnRecord (s : Step) (registry : Registry σ) (directory : Option Path) (results : Results)
    (world : σ) : Record :=
  if s.enabled then
    match (s.perform registry Request.isShowable directory results world).outcome with
    | .ok execution => (Record.initial s).capture execution
    | .error stop =>
      ({ Record.initial s with status := s.reached directory results } : Record).stopped stop
  else { Record.initial s with status := .skipped }

end Step

/-- Two runs, of whatever workflows, have come equally far as later steps can tell. Records, calls
and log may show different steps. -/
structure RunState.Alike (state state' : RunState σ) : Prop where
  /-- The worlds are the same. -/
  world : state'.world = state.world
  /-- The same has been captured. -/
  results : state'.results = state.results
  /-- The calls ask for the same. -/
  calls : state'.calls.map Call.request = state.calls.map Call.request
  /-- Both go on, or they have stopped for the same reason. -/
  stop : state'.stop = state.stop

/-- Runs that are alike are so again if both gain the same results and requests, and then go on or
stop for the same reason. -/
theorem RunState.Extends.alike {state state' next next' : RunState σ} {calls calls' : List Call}
    {results : Results} {record record' : Record} {stop : Option Stop}
    (hturn : state.Extends next calls results record stop)
    (hturn' : state'.Extends next' calls' results record' stop) (h : state.Alike state')
    (hcalls : calls'.map Call.request = calls.map Call.request)
    (hworld : next'.world = next.world) : next.Alike next' := by
  refine ⟨hworld, ?_, ?_, ?_⟩
  · rw [hturn.results, hturn'.results, h.results]
  · rw [hturn.calls, hturn'.calls, List.map_append, List.map_append, h.calls, hcalls]
  · rw [hturn.stop, hturn'.stop]

/-- Two runs, of whatever workflows, that came to the same end in the same way. Their summaries may
list different steps. -/
structure Run.Alike (run run' : Run σ) : Prop where
  /-- The calls ask for the same. -/
  calls : run'.calls.map Call.request = run.calls.map Call.request
  /-- The same has been captured. -/
  results : run'.results = run.results
  /-- Both have come to their ends, or they have stopped for the same reason. -/
  stop : run'.stop = run.stop
  /-- The worlds are the same. -/
  world : run'.world = run.world
  /-- The summaries say the same of the whole. -/
  status : run'.summary.status = run.summary.status
  /-- The summaries report the same error. -/
  error : run'.summary.error = run.summary.error

namespace Workflow

theorem start_alike (w w' : Workflow) (world : σ) : (w.start world).Alike (w'.start world) :=
  ⟨rfl, rfl, rfl, rfl⟩

theorem close_alike (w w' : Workflow) {state state' : RunState σ} (h : state.Alike state') :
    (w.close state).Alike (w'.close state') :=
  ⟨h.calls, h.results, h.stop, h.world, congrArg endStatus h.stop, congrArg endError h.stop⟩

section Turn

variable (registry : Registry σ) (directory : Option Path) (state : RunState σ) (step : Step)
  (later : List Step)

/-- A turn leaves one record, which does not depend on the other steps. -/
theorem turn_records :
    (turn registry directory state step later).records =
      state.records ++ [step.turnRecord registry directory state.results state.world] := by
  unfold Step.turnRecord
  cases henabled : step.enabled with
  | false =>
    rw [(turn_disabled registry directory state step later henabled).1.records]
    rfl
  | true =>
    have hrun := turn_describes registry directory state step later
    have hrecord := step.record_of_run (turnSetting registry directory state later) state.results
      (turnStart state step)
    rcases hr : step.run (turnSetting registry directory state later) state.results
      (turnStart state step) with ⟨outcome, p⟩
    rw [hr] at hrun hrecord
    have houtcome : outcome = (turnService registry directory state step).outcome := hrun.outcome
    have hrecord : p.record =
        { Record.initial step with status := step.reached directory state.results } := hrecord
    simp only [turnSetting, turnStart] at hr
    simp only [turn, henabled, hr, if_true]
    cases hservice : (turnService registry directory state step).outcome with
    | ok execution =>
      rw [houtcome, hservice]
      exact congrArg (fun r => state.records ++ [r]) (hrun.record.capture execution)
    | error stop =>
      rw [houtcome, hservice]
      exact congrArg (fun r : Record => state.records ++ [r.stopped stop]) hrecord

end Turn

section Alike

variable {registry : Registry σ} {directory : Option Path} {state state' : RunState σ}

/-- The same turn makes alike runs alike again, whatever steps come before and after it. -/
theorem turn_alike (h : state.Alike state') (step : Step) (later later' : List Step) :
    (turn registry directory state step later).Alike
      (turn registry directory state' step later') := by
  have hservice : turnService registry directory state' step =
      turnService registry directory state step := by
    simp only [turnService, h.results, h.world]
  have hcalls : (turnCalls registry directory state' step later').map Call.request =
      (turnCalls registry directory state step later).map Call.request := by
    rw [map_request_turnCalls, map_request_turnCalls, hservice]
  cases henabled : step.enabled with
  | false =>
    obtain ⟨hturn, hworld⟩ := turn_disabled registry directory state step later henabled
    obtain ⟨hturn', hworld'⟩ := turn_disabled registry directory state' step later' henabled
    rw [h.stop] at hturn'
    exact hturn.alike hturn' h rfl (by rw [hworld, hworld', h.world])
  | true =>
    cases houtcome : (turnService registry directory state step).outcome with
    | ok execution =>
      obtain ⟨hturn, hworld⟩ := turn_captured registry directory state step later henabled houtcome
      obtain ⟨hturn', hworld'⟩ :=
        turn_captured registry directory state' step later' henabled (hservice ▸ houtcome)
      rw [h.stop] at hturn'
      exact hturn.alike hturn' h hcalls (by rw [hworld, hworld', hservice])
    | error stop =>
      obtain ⟨_, -, hturn, hworld⟩ :=
        turn_stopped registry directory state step later henabled houtcome
      obtain ⟨_, -, hturn', hworld'⟩ :=
        turn_stopped registry directory state' step later' henabled (hservice ▸ houtcome)
      exact hturn.alike hturn' h hcalls (by rw [hworld, hworld', hservice])

end Alike

end Workflow

end Runbook
