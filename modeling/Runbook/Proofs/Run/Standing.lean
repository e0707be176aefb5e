import Runbook.Proofs.Run.Turn

/-!
# Where the steps of a run stand

At every moment of a run the steps whose turn has passed are settled, those whose turn is to come
are pending, and what has been captured is what the settled steps captured, in their order.

The module introduces:

* `Workflow.standings`: where the steps stand when one of them has its turn;
* `Workflow.Settled`: the invariant of the states that a run comes through;
* `Workflow.CallStands`, `Workflow.Finished`, `Workflow.FailedAt`: what can be seen of a run at a
  call, at its end, and at the failure of a step.

The main result is `Workflow.execute_standings`.
-/

namespace Runbook

variable {σ : Type}

/-- Where a step stands, together with what its record says of its definition. -/
structure Standing where
  /-- The name of the step. -/
  name : String
  /-- The type of the step. -/
  type : String
  /-- Whether the step is enabled. -/
  enabled : Bool
  /-- Where the step stands. -/
  status : Status
  deriving DecidableEq, Repr

/-- Where the step of a record stands. -/
def Record.standing (r : Record) : Standing :=
  ⟨r.name, r.type, r.enabled, r.status⟩

namespace Step

/-- A step that stands at a status. -/
def standing (s : Step) (status : Status) : Standing :=
  ⟨s.name, s.type, s.enabled, status⟩

/-- Where a step stands whose turn has passed. -/
def settled (s : Step) : Standing :=
  s.standing (if s.enabled then .captured else .skipped)

end Step

/-- What the captured ones among records hold. -/
def capturedIn (records : List Record) : Results :=
  (records.filter (·.status == .captured)).map fun r => (r.name, r.outputs)

theorem capturedIn_append (first second : List Record) :
    capturedIn (first ++ second) = capturedIn first ++ capturedIn second := by
  simp [capturedIn]

/-- The names of the enabled ones among steps. -/
def enabledNames (steps : List Step) : List String :=
  (steps.filter Step.enabled).map Step.name

theorem mem_names_of_mem_enabledNames {steps : List Step} {name : String}
    (h : name ∈ enabledNames steps) : name ∈ steps.map Step.name := by
  obtain ⟨step, hstep, rfl⟩ := List.mem_map.mp h
  exact List.mem_map_of_mem (List.mem_filter.mp hstep).1

/-- What records of different names hold is found under their names. -/
theorem lookup_capturedIn {records : List Record} (hnames : (records.map Record.name).Nodup)
    {r : Record} (hr : r ∈ records) (hcaptured : r.status = .captured) :
    (capturedIn records).lookup r.name = some r.outputs := by
  induction records with
  | nil => cases hr
  | cons first records ih =>
    obtain ⟨hfirst, hnames⟩ := List.nodup_cons.mp hnames
    rcases List.mem_cons.mp hr with rfl | hr
    · simp [capturedIn, hcaptured]
    · have hne : (r.name == first.name) = false := by
        refine beq_false_of_ne fun heq => hfirst ?_
        rw [← heq]
        exact List.mem_map_of_mem hr
      have hrest := ih hnames hr
      unfold capturedIn at hrest ⊢
      rw [List.filter_cons]
      split
      · rw [List.map_cons, List.lookup_cons, hne]
        exact hrest
      · exact hrest

namespace Workflow

/-- Where the steps of a workflow stand when one of them has its turn. -/
def standings (before : List Step) (step : Step) (status : Status) (after : List Step) :
    List Standing :=
  before.map Step.settled ++ step.standing status :: after.map (·.standing .pending)

/-- A call is made for a step in its turn. -/
structure CallStands (w : Workflow) (registry : Registry σ) (world : σ) (before : List Step)
    (state : RunState σ) (step : Step) (after : List Step) (c : Call) : Prop where
  /-- The run has come to the turn of the step. -/
  reached : w.Reaches registry world before state (step :: after)
  /-- The step makes the call while it runs, with what has been captured before. -/
  made : c ∈ (step.run (turnSetting registry w.baseDirectory state after) state.results
    (turnStart state step)).2.calls
  /-- The step is enabled. -/
  enabled : step.enabled = true
  /-- The call is made in the name of the step. -/
  stepName : c.context.stepName = step.name
  /-- The steps before are settled, the step is at its call, the steps after are pending. -/
  statuses : c.statuses = some ((standings before step .invoking after).map Standing.status)
  /-- What has been captured is what the enabled steps before captured, in their order. -/
  results : state.results.map Prod.fst = enabledNames before

/-- A state that a run comes through, after the turns of the steps `before`. -/
structure Settled (w : Workflow) (registry : Registry σ) (world : σ) (before : List Step)
    (state : RunState σ) : Prop where
  /-- The records are those of the steps that had their turns, all of them settled. -/
  standings : state.records.map Record.standing = before.map Step.settled
  /-- The results are what the records hold. -/
  results : state.results = capturedIn state.records
  /-- Every call has been made for a step in its turn. -/
  calls : ∀ c ∈ state.calls, ∃ before' state' step after,
    w.CallStands registry world before' state' step after c

section Settled

variable {w : Workflow} {registry : Registry σ} {world : σ} {before after : List Step}
  {state : RunState σ} {step : Step}

/-- What settled records hold is kept under the names of the enabled steps. -/
theorem names_capturedIn {records : List Record} {steps : List Step}
    (h : records.map Record.standing = steps.map Step.settled) :
    (capturedIn records).map Prod.fst = enabledNames steps := by
  induction steps generalizing records with
  | nil =>
    obtain rfl := List.map_eq_nil_iff.mp h
    rfl
  | cons step steps ih =>
    obtain ⟨r, rest, rfl, hr, hrest⟩ := List.map_eq_cons_iff.mp h
    have hname : r.name = step.name := congrArg Standing.name hr
    have hstatus : r.status = if step.enabled then .captured else .skipped :=
      congrArg Standing.status hr
    have ih := ih hrest
    -- A settled record is captured just if its step is enabled.
    cases henabled : step.enabled <;>
      simp_all [capturedIn, enabledNames]

/-- Just the enabled ones among the steps that had their turns have results. -/
theorem Settled.names (h : w.Settled registry world before state) :
    state.results.map Prod.fst = enabledNames before := by
  rw [h.results, names_capturedIn h.standings]

/-- A step that had no turn has no results. -/
theorem Settled.lookup_eq_none (h : w.Settled registry world before state) {name : String}
    (hname : name ∉ before.map Step.name) : state.results.lookup name = none := by
  rw [List.lookup_eq_none_iff]
  intro entry hentry
  refine bne_iff_ne.mpr fun heq => hname ?_
  refine mem_names_of_mem_enabledNames ?_
  rw [← h.names, heq]
  exact List.mem_map_of_mem hentry

/-- An enabled step that had its turn has results. -/
theorem Settled.lookup_ne_none (h : w.Settled registry world before state) {name : String}
    (hname : name ∈ enabledNames before) : state.results.lookup name ≠ none := by
  intro hnone
  rw [← h.names] at hname
  obtain ⟨entry, hentry, heq⟩ := List.mem_map.mp hname
  have hne := List.lookup_eq_none_iff.mp hnone entry hentry
  simp [heq] at hne

/-- The calls of a turn see the steps before settled and the steps after pending. -/
theorem Settled.callStands (h : w.Settled registry world before state)
    (hreached : w.Reaches registry world before state (step :: after))
    (henabled : step.enabled = true) {c : Call}
    (hc : c ∈ turnCalls registry w.baseDirectory state step after) :
    w.CallStands registry world before state step after c := by
  have hmade := hc
  rw [← calls_of_run] at hmade
  obtain ⟨r, hr, rfl⟩ := List.mem_map.mp hc
  obtain ⟨requests, hrequests, hmem⟩ := Step.mem_requests_of_made (List.mem_filter.mp hr).1
  have hname : r.context.stepName = step.name := (Step.of_mem_requests hrequests hmem).2
  refine ⟨hreached, hmade, henabled, hname, ?_, h.names⟩
  · have hrecords := congrArg (List.map Standing.status) h.standings
    rw [List.map_map] at hrecords
    simp only [Workflow.standings, Request.toCall, turnSetting, List.map_append, List.map_cons,
      List.map_map, ← hrecords]
    rfl

/-- Every state that a run comes through is settled. -/
theorem Reaches.settled (h : w.Reaches registry world before state after) :
    w.Settled registry world before state := by
  induction h with
  | start => exact ⟨rfl, rfl, fun c hc => by cases hc⟩
  | @next before state step after hreached hstop ih =>
    rcases turn_goes_on registry w.baseDirectory state step after hreached.stop_eq hstop with
      ⟨henabled, hturn, -⟩ | ⟨henabled, execution, -, hturn, -⟩
    -- A disabled step adds a skipped record and nothing else.
    · refine ⟨?_, ?_, ?_⟩
      · rw [hturn.records, List.map_append, List.map_append, ih.standings]
        simp [Record.standing, Record.initial, Step.settled, Step.standing, henabled]
      · rw [hturn.results, hturn.records, capturedIn_append, ih.results]
        rfl
      · rw [hturn.calls, List.append_nil]
        exact ih.calls
    -- An enabled step adds a captured record, its entry in the results, and its calls.
    · refine ⟨?_, ?_, ?_⟩
      · rw [hturn.records, List.map_append, List.map_append, ih.standings]
        simp [Record.standing, Record.initial, Record.capture, Step.settled, Step.standing,
          henabled]
      · rw [hturn.results, hturn.records, capturedIn_append, ih.results]
        rfl
      · intro c hc
        rw [hturn.calls] at hc
        rcases List.mem_append.mp hc with hc | hc
        · exact ih.calls c hc
        · exact ⟨before, state, step, after, ih.callStands hreached henabled hc⟩

end Settled

/-! ## What a run shows -/

/-- A run has come to the end of its workflow. -/
structure Finished (w : Workflow) (run : Run σ) : Prop where
  /-- The summary says so. -/
  status : run.summary.status = .completed
  /-- All steps are settled: the enabled ones are captured, the others skipped. -/
  standings : run.summary.steps.map Record.standing = w.steps.map Step.settled
  /-- What the enabled steps captured is kept under their names, in their order. -/
  names : run.results.map Prod.fst = enabledNames w.steps
  /-- The record of an enabled step holds the step's entry in the results. -/
  outputs : ∀ r ∈ run.summary.steps, r.enabled = true →
    run.results.lookup r.name = some r.outputs

/-- A run has ended with the failure of a step. -/
structure FailedAt (run : Run σ) (before : List Step) (step : Step) (after : List Step)
    (failure : StepFailure) : Prop where
  /-- The failure is that of the step. -/
  failedStep : failure.step = step.name
  /-- The step is enabled. -/
  enabled : step.enabled = true
  /-- The summary says that the run failed. -/
  status : run.summary.status = .failed
  /-- The steps before are settled, the step has failed, the steps after are pending. -/
  standings : run.summary.steps.map Record.standing = standings before step .failed after
  /-- What has been captured is what the enabled steps before captured, in their order. -/
  names : run.results.map Prod.fst = enabledNames before
  /-- It is what the records hold. -/
  results : run.results = capturedIn run.summary.steps
  /-- Nothing has been captured for the step. -/
  absent : run.results.lookup step.name = none

section Execute

variable {w : Workflow} {registry : Registry σ} {world : σ} {before after : List Step}
  {state : RunState σ} {step : Step}

/-- Steps whose turn has not come hold nothing. -/
theorem capturedIn_initial (steps : List Step) : capturedIn (steps.map Record.initial) = [] := by
  simp [capturedIn, Record.initial]

/-- A run that reaches its end is finished. -/
theorem Settled.finished (hnames : (w.steps.map Step.name).Nodup)
    (h : w.Settled registry world w.steps state) (hstop : state.stop = none) :
    w.Finished (w.close state) := by
  have hrecordNames : state.records.map Record.name = w.steps.map Step.name := by
    have := congrArg (List.map Standing.name) h.standings
    rwa [List.map_map, List.map_map] at this
  refine ⟨?_, h.standings, h.names, ?_⟩
  · simp [close, hstop, endStatus]
  · intro r hr henabled
    change state.results.lookup r.name = _
    -- The record stands where the step that it is of has settled.
    obtain ⟨step, -, hstep⟩ := List.mem_map.mp (h.standings ▸ List.mem_map_of_mem hr)
    have hstatus : r.status = .captured := by
      have hsame : step.enabled = r.enabled := congrArg Standing.enabled hstep
      have hsettled : (if step.enabled then Status.captured else .skipped) = r.status :=
        congrArg Standing.status hstep
      rw [← hsettled, hsame, henabled]
      rfl
    rw [h.results]
    exact lookup_capturedIn (hrecordNames ▸ hnames) hr hstatus

/-- A run that stops keeps what was captured before, and its records hold just that. -/
theorem Settled.results_stopped (h : w.Settled registry world before state)
    (hreached : w.Reaches registry world before state (step :: after)) {stop : Stop}
    (hstop : (turn registry w.baseDirectory state step after).stop = some stop) :
    (w.close (stoppedState w registry state step after)).results = state.results ∧
      state.results =
        capturedIn (w.close (stoppedState w registry state step after)).summary.steps := by
  obtain ⟨-, -, record, hmoved, hturn, -⟩ :=
    turn_ends registry w.baseDirectory state step after hreached.stop_eq hstop
  have hrecords : (w.close (stoppedState w registry state step after)).summary.steps =
      state.records ++ [record.stopped stop] ++ after.map Record.initial :=
    congrArg (· ++ after.map Record.initial) hturn.records
  have hstopped : capturedIn [record.stopped stop] = [] := by
    simp [capturedIn, hmoved.status_stopped_ne stop]
  refine ⟨hturn.results.trans (List.append_nil _), ?_⟩
  rw [hrecords, capturedIn_append, capturedIn_append, capturedIn_initial, hstopped, h.results,
    List.append_nil, List.append_nil]

/-- A run that stops for a failure in the turn of a step shows the failure of that step. -/
theorem Settled.failedAt (hnames : (w.steps.map Step.name).Nodup)
    (h : w.Settled registry world before state)
    (hreached : w.Reaches registry world before state (step :: after)) {failure : StepFailure}
    (hstop : (turn registry w.baseDirectory state step after).stop = some (.failed failure)) :
    FailedAt (w.close (stoppedState w registry state step after)) before step after failure := by
  obtain ⟨henabled, houtcome, record, ⟨status, -, hmoved⟩, hturn, -⟩ :=
    turn_ends registry w.baseDirectory state step after hreached.stop_eq hstop
  obtain ⟨hresults, hcaptured⟩ := h.results_stopped hreached hstop
  have hrecords : (w.close (stoppedState w registry state step after)).summary.steps =
      state.records ++ [record.stopped (.failed failure)] ++ after.map Record.initial :=
    congrArg (· ++ after.map Record.initial) hturn.records
  refine ⟨Step.step_of_perform_failed houtcome, henabled, ?_, ?_, ?_, ?_, ?_⟩
  · simp [close, stoppedState, hstop, endStatus]
  · rw [hrecords, List.map_append, List.map_append, h.standings, hmoved, List.map_map]
    simp only [Workflow.standings, List.append_assoc, List.map_cons, List.map_nil,
      List.cons_append, List.nil_append]
    rfl
  · rw [hresults, h.names]
  · rw [hresults, hcaptured]
  · rw [hresults]
    -- The steps before have other names.
    refine h.lookup_eq_none fun hmem => ?_
    rw [hreached.steps_eq, List.map_append, List.map_cons] at hnames
    exact (List.nodup_append.mp hnames).2.2 _ hmem _ List.mem_cons_self rfl

/-- What a run has captured is what its records hold, however the run has ended. -/
theorem runValid_results (w : Workflow) (registry : Registry σ) (world : σ) :
    (w.runValid registry world).results =
      capturedIn (w.runValid registry world).summary.steps := by
  rcases runValid_ends w registry world with
    ⟨state, hreached, hrun⟩ | ⟨before, state, step, after, stop, hreached, hstop, hrun⟩
  · rw [hrun]
    exact hreached.settled.results
  · obtain ⟨hresults, hcaptured⟩ := hreached.settled.results_stopped hreached hstop
    rw [hrun, hresults, hcaptured]

/-- Every call of a run is made for a step in its turn. -/
theorem callStands_of_mem {c : Call} (hc : c ∈ (w.runValid registry world).calls) :
    ∃ before state step after, w.CallStands registry world before state step after c := by
  rcases runValid_ends w registry world with
    ⟨state, hreached, hrun⟩ | ⟨before, state, step, after, stop, hreached, hstop, hrun⟩
  · rw [hrun] at hc
    exact hreached.settled.calls c hc
  · obtain ⟨henabled, -, record, -, hturn, -⟩ :=
      turn_ends registry w.baseDirectory state step after hreached.stop_eq hstop
    rw [hrun] at hc
    change c ∈ (turn registry w.baseDirectory state step after).calls at hc
    rw [hturn.calls] at hc
    rcases List.mem_append.mp hc with hc | hc
    · exact hreached.settled.calls c hc
    · exact ⟨before, state, step, after, hreached.settled.callStands hreached henabled hc⟩

/-- A run without a reason to stop has come to the end of its workflow. -/
theorem finished_of_stop_eq (hnames : (w.steps.map Step.name).Nodup)
    (h : (w.runValid registry world).stop = none) : w.Finished (w.runValid registry world) := by
  rcases runValid_ends w registry world with
    ⟨state, hreached, hrun⟩ | ⟨before, state, step, after, stop, hreached, hstop, hrun⟩
  · rw [hrun]
    exact hreached.settled.finished hnames hreached.stop_eq
  · rw [hrun] at h
    cases hstop.symm.trans h

/-- A run that stops for a failure has come to the turn of the step that failed. -/
theorem failedAt_of_stop_eq (hnames : (w.steps.map Step.name).Nodup) {failure : StepFailure}
    (h : (w.runValid registry world).stop = some (.failed failure)) :
    ∃ before step after, w.steps = before ++ step :: after ∧
      FailedAt (w.runValid registry world) before step after failure := by
  rcases runValid_ends w registry world with
    ⟨state, hreached, hrun⟩ | ⟨before, state, step, after, stop, hreached, hstop, hrun⟩
  · rw [hrun] at h
    cases hreached.stop_eq.symm.trans h
  · rw [hrun] at h ⊢
    obtain rfl : stop = .failed failure := Option.some.inj (hstop.symm.trans h)
    exact ⟨before, step, after, hreached.steps_eq,
      hreached.settled.failedAt hnames hreached hstop⟩

/-- Where the steps of a valid workflow stand while it is executed: at every call the steps before
are settled and the steps after pending; a run that ends shows all steps settled; a run that fails
shows the step that failed between settled and pending ones. Nothing depends on what earlier runs
left behind. -/
theorem execute_standings (session : Session) (hvalid : w.validate = .ok ())
    (registry : Registry σ) (world : σ) :
    ∃ run, session.execute w registry world = (⟨run.results, some run.summary⟩, .ok run) ∧
      (∀ c ∈ run.calls, ∃ before state step after, w.steps = before ++ step :: after ∧
        w.CallStands registry world before state step after c) ∧
      (run.stop = none → w.Finished run) ∧
      ∀ failure, run.stop = some (.failed failure) →
        ∃ before step after, w.steps = before ++ step :: after ∧
          FailedAt run before step after failure := by
  have hnames := nodup_names hvalid
  refine ⟨w.runValid registry world, ?_, ?_, finished_of_stop_eq hnames, ?_⟩
  · simp only [Session.execute, run_of_validate hvalid]
  · intro c hc
    obtain ⟨before, state, step, after, hstands⟩ := callStands_of_mem hc
    exact ⟨before, state, step, after, hstands.reached.steps_eq, hstands⟩
  · intro failure hfailure
    exact failedAt_of_stop_eq hnames hfailure

/-- A workflow with a disabled step, a loop over two items and a step that fails before the last. -/
def haltingWorkflow : Workflow :=
  { steps := [
      { name := "first", type := "#echo", enabled := true },
      { name := "idle", type := "#echo" },
      { name := "each", type := "#echo", enabled := true, loop := some ⟨"x\ny", "item"⟩ },
      { name := "last", type := "#halt", enabled := true },
      { name := "never", type := "#echo", enabled := true }] }

/-- An operation that counts its calls and one that fails. -/
def haltingRegistry : Registry Nat :=
  { operations := [
      ("echo", fun _ _ calls => (.ok (.text "said"), calls + 1)),
      ("halt", fun _ _ calls => (.error (.raised "ValueError" "no more"), calls))] }

theorem haltingWorkflow_stop :
    (haltingWorkflow.runValid haltingRegistry 0).stop =
      some (.failed ⟨"last", .invocation, none, .call (.raised "ValueError" "no more")⟩) := by
  decide +kernel

/-- The workflow that halts is valid, and executing it shows the failure of one of its steps. -/
theorem execute_standings_halting :
    haltingWorkflow.validate = .ok () ∧
      ∃ run, ((⟨[("old", [])], none⟩ : Session).execute haltingWorkflow haltingRegistry 0).2 =
          .ok run ∧ run.calls.length = 4 ∧
        ∃ before step after failure, haltingWorkflow.steps = before ++ step :: after ∧
          FailedAt run before step after failure := by
  have hvalid : haltingWorkflow.validate = .ok () := rfl
  obtain ⟨run, hrun, -, -, hfailed⟩ :=
    execute_standings ⟨[("old", [])], none⟩ hvalid haltingRegistry 0
  have hsame : run = haltingWorkflow.runValid haltingRegistry 0 := by
    have hok := congrArg Prod.snd hrun
    simp only [Session.execute, run_of_validate hvalid] at hok
    exact (Except.ok.inj hok).symm
  refine ⟨hvalid, run, congrArg Prod.snd hrun, ?_, ?_⟩
  · rw [hsame]
    decide +kernel
  · have hstop := haltingWorkflow_stop
    rw [← hsame] at hstop
    obtain ⟨before, step, after, hsteps, hat⟩ := hfailed _ hstop
    exact ⟨before, step, after, _, hsteps, hat⟩

end Execute

end Workflow

end Runbook
