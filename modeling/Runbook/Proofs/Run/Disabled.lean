import Mathlib.Data.List.Nodup
import Runbook.Proofs.Delivery.Absent
import Runbook.Proofs.Run.Alike
import Runbook.Proofs.Run.Standing

/-!
# Disabled steps

A disabled step has a record and nothing else: a workflow does the same without its disabled steps.

The module introduces:

* `Workflow.withoutDisabled`: a workflow without its disabled steps;
* `Workflow.withDisabled`: the records of a run of that workflow, with the records of the disabled
  steps put in their places.

The main result is `Workflow.run_withoutDisabled`, which compares the two runs and what is delivered
after them.
-/

namespace Runbook

variable {σ : Type}

namespace Workflow

/-- The workflow without its disabled steps. -/
def withoutDisabled (w : Workflow) : Workflow :=
  { w with steps := w.steps.filter Step.enabled }

/-- The records of the enabled ones among steps, with those of the disabled ones in their places. A
disabled step stands at the given status, or is pending if it comes after a step that was not
captured. -/
def withDisabled : Status → List Step → List Record → List Record
  | _, [], _ => []
  | status, step :: steps, records =>
    if step.enabled then
      match records with
      | [] => []
      | r :: records =>
        let status := if r.status = .captured then status else .pending
        r :: withDisabled status steps records
    else { Record.initial step with status := status } :: withDisabled status steps records

section WithDisabled

variable {status : Status} {step : Step} {steps : List Step} {r : Record} {records : List Record}

theorem withDisabled_of_disabled (h : step.enabled = false) :
    withDisabled status (step :: steps) records =
      { Record.initial step with status := status } :: withDisabled status steps records := by
  rw [withDisabled.eq_def]
  simp only [h, Bool.false_eq_true, if_false]

theorem withDisabled_of_captured (h : step.enabled = true) (hr : r.status = .captured) :
    withDisabled status (step :: steps) (r :: records) =
      r :: withDisabled status steps records := by
  rw [withDisabled, h]
  simp only [hr, if_true]

theorem withDisabled_of_stopped (h : step.enabled = true) (hr : r.status ≠ .captured) :
    withDisabled status (step :: steps) (r :: records) =
      r :: withDisabled .pending steps records := by
  rw [withDisabled, h]
  simp only [hr, if_true, if_false]

/-- After a step that was not captured all records are first records. -/
theorem withDisabled_initial (steps : List Step) :
    withDisabled .pending steps ((steps.filter Step.enabled).map Record.initial) =
      steps.map Record.initial := by
  induction steps with
  | nil => rfl
  | cons step steps ih =>
    cases henabled : step.enabled with
    | false =>
      rw [List.filter_cons_of_neg (by simp [henabled]), withDisabled_of_disabled henabled, ih]
      rfl
    | true =>
      rw [List.filter_cons_of_pos henabled, List.map_cons,
        withDisabled_of_stopped henabled (by simp [Record.initial]), ih]
      rfl

end WithDisabled

/-! ## The runs with and without disabled steps -/

section Turns

variable {registry : Registry σ} {directory : Option Path} {state state' : RunState σ}

/-- The turn of a disabled step leaves a run alike. -/
theorem alike_of_disabled (h : state.Alike state') {step : Step} (henabled : step.enabled = false)
    (later : List Step) : state.Alike (turn registry directory state' step later) := by
  obtain ⟨hturn, hworld⟩ := turn_disabled registry directory state' step later henabled
  refine ⟨?_, ?_, ?_, ?_⟩
  · rw [hworld, h.world]
  · rw [hturn.results, List.append_nil, h.results]
  · rw [hturn.calls, List.append_nil, h.calls]
  · rw [hturn.stop, h.stop]

/-- A step whose turn does not stop the run is captured if it is enabled. -/
theorem status_turnRecord_of_goes_on {step : Step} {later : List Step}
    (hstate : state.stop = none) (henabled : step.enabled = true)
    (hnext : (turn registry directory state step later).stop = none) :
    (step.turnRecord registry directory state.results state.world).status = .captured := by
  rcases turn_goes_on registry directory state step later hstate hnext with
    ⟨hdisabled, -⟩ | ⟨-, execution, houtcome, -⟩
  · cases hdisabled.symm.trans henabled
  · simp only [Step.turnRecord, henabled, houtcome, if_true, Record.capture]

/-- A step whose turn stops the run is not captured. -/
theorem status_turnRecord_of_ends {step : Step} {later : List Step} {stop : Stop}
    (hstate : state.stop = none)
    (hnext : (turn registry directory state step later).stop = some stop) :
    (step.turnRecord registry directory state.results state.world).status ≠ .captured := by
  obtain ⟨-, -, record, hmoved, hturn, -⟩ :=
    turn_ends registry directory state step later hstate hnext
  have hrecords := hturn.records.symm.trans (turn_records registry directory state step later)
  have hrecord := List.singleton_inj.mp (List.append_cancel_left hrecords)
  rw [← hrecord]
  exact hmoved.status_stopped_ne stop

/-- Steps have their turns with or without the disabled ones among them: the runs come to alike
states, and the longer list of records is the shorter one with the disabled steps put in. -/
theorem turns_filter (registry : Registry σ) (directory : Option Path) {state state' : RunState σ}
    (h : state.Alike state') (hstate : state.stop = none) (steps : List Step) :
    (turns registry directory state (steps.filter Step.enabled)).Alike
        (turns registry directory state' steps) ∧
      ∃ records, (turns registry directory state (steps.filter Step.enabled)).records =
          state.records ++ records ∧
        (turns registry directory state' steps).records =
          state'.records ++ withDisabled .skipped steps records := by
  induction steps generalizing state state' with
  | nil => exact ⟨h, [], by simp [turns], by simp [turns, withDisabled]⟩
  | cons step steps ih =>
    have hstate' := h.stop.trans hstate
    cases henabled : step.enabled with
    | false =>
      -- The run without the step waits while the other one skips it.
      obtain ⟨hturn, -⟩ := turn_disabled registry directory state' step steps henabled
      rw [List.filter_cons_of_neg (by simp [henabled]),
        turns_of_goes_on (hturn.stop.trans hstate')]
      obtain ⟨halike, records, hshort, hlong⟩ := ih (alike_of_disabled h henabled steps) hstate
      refine ⟨halike, records, hshort, ?_⟩
      rw [hlong, hturn.records, withDisabled_of_disabled henabled, List.append_assoc]
      rfl
    | true =>
      have halike : (turn registry directory state step (steps.filter Step.enabled)).Alike
          (turn registry directory state' step steps) := turn_alike h step _ steps
      have hshort := turn_records registry directory state step (steps.filter Step.enabled)
      have hlong := turn_records registry directory state' step steps
      rw [h.results, h.world] at hlong
      -- Both turns leave the same record.
      generalize hr : step.turnRecord registry directory state.results state.world = r
        at hshort hlong
      rw [List.filter_cons_of_pos henabled]
      cases hstop : (turn registry directory state step (steps.filter Step.enabled)).stop with
      | none =>
        have hcaptured : r.status = .captured :=
          hr ▸ status_turnRecord_of_goes_on hstate henabled hstop
        rw [turns_of_goes_on hstop, turns_of_goes_on (halike.stop.trans hstop)]
        obtain ⟨hend, records, hrecords, hrecords'⟩ := ih halike hstop
        refine ⟨hend, r :: records, ?_, ?_⟩
        · rw [hrecords, hshort, List.append_assoc, List.singleton_append]
        · rw [hrecords', hlong, withDisabled_of_captured henabled hcaptured, List.append_assoc,
            List.singleton_append]
      | some stop =>
        have hstopped : r.status ≠ .captured := hr ▸ status_turnRecord_of_ends hstate hstop
        rw [turns_of_stops hstop, turns_of_stops (halike.stop.trans hstop)]
        refine ⟨⟨halike.world, halike.results, halike.calls, halike.stop⟩,
          r :: (steps.filter Step.enabled).map Record.initial, ?_, ?_⟩
        · simp only [hshort, List.append_assoc, List.singleton_append]
        · -- Both runs have stopped in the turn of the step; the later steps are pending.
          simp only [hlong, withDisabled_of_stopped henabled hstopped, withDisabled_initial,
            List.append_assoc, List.singleton_append]

end Turns

/-- What a run captures are results of enabled steps. -/
theorem names_of_runValid (w : Workflow) (registry : Registry σ) (world : σ) :
    ∀ entry ∈ (w.runValid registry world).results, entry.1 ∈ enabledNames w.steps := by
  have henabled {before after : List Step} {state : RunState σ}
      (h : w.Reaches registry world before state after) :
      ∀ entry ∈ state.results, entry.1 ∈ enabledNames w.steps := by
    intro entry hentry
    rw [h.steps_eq, enabledNames, List.filter_append, List.map_append]
    refine List.mem_append_left _ ?_
    rw [← enabledNames, ← h.settled.names]
    exact List.mem_map_of_mem hentry
  rcases runValid_ends w registry world with
    ⟨state, hreached, hrun⟩ | ⟨before, state, step, after, stop, hreached, hstop, hrun⟩
  · rw [hrun]
    exact henabled hreached
  · rw [hrun, (hreached.settled.results_stopped hreached hstop).1]
    exact henabled hreached

/-- A disabled step of a valid workflow has no results. -/
theorem lookup_of_disabled {w : Workflow} (hnames : (w.steps.map Step.name).Nodup)
    (registry : Registry σ) (world : σ) {step : Step} (hstep : step ∈ w.steps)
    (henabled : step.enabled = false) :
    (w.runValid registry world).results.lookup step.name = none := by
  rw [List.lookup_eq_none_iff]
  intro entry hentry
  refine bne_iff_ne.mpr fun hname => ?_
  -- An enabled step of the same name would be the same step.
  obtain ⟨other, hother, hsame⟩ := List.mem_map.mp (names_of_runValid w registry world entry hentry)
  obtain ⟨hmem, hotherEnabled⟩ := List.mem_filter.mp hother
  obtain rfl := List.inj_on_of_nodup_map hnames hmem hstep (hsame.trans hname.symm)
  cases henabled.symm.trans hotherEnabled

/-- A workflow with an enabled step does the same with or without its disabled steps: the same
calls, results and end. The records with the disabled steps are those without them, in which a
disabled step is skipped unless it comes after a step that has failed, where it is pending. What is
delivered of the results is the same as well. -/
theorem run_withoutDisabled {w : Workflow} (hvalid : w.validate = .ok ())
    (henabled : ∃ step ∈ w.steps, step.enabled = true) (registry : Registry σ) (world : σ) :
    ∃ short long, w.withoutDisabled.run registry world = .ok short ∧
      w.run registry world = .ok long ∧
      short.Alike long ∧
      long.summary.steps = withDisabled .skipped w.steps short.summary.steps ∧
      (long.stop = none → w.Finished long) ∧
      (∀ failure, long.stop = some (.failed failure) →
        ∃ before step after, w.steps = before ++ step :: after ∧
          FailedAt long before step after failure) ∧
      ∀ tree, Delivery.EndAlike (Delivery.deliver w.withoutDisabled long.results tree)
        (Delivery.deliver w long.results tree) := by
  have hvalid' : w.withoutDisabled.validate = .ok () := by
    refine validate_of_sublist hvalid List.filter_sublist ?_
    obtain ⟨step, hstep, henabled⟩ := henabled
    exact List.ne_nil_of_mem (List.mem_filter.mpr ⟨hstep, henabled⟩)
  have hnames := nodup_names hvalid
  obtain ⟨halike, records, hshort, hlong⟩ :=
    turns_filter registry w.baseDirectory
      (start_alike w.withoutDisabled w world) rfl w.steps
  refine ⟨_, _, run_of_validate hvalid' registry world, run_of_validate hvalid registry world,
    close_alike _ _ halike, ?_, finished_of_stop_eq hnames,
    fun failure => failedAt_of_stop_eq hnames, ?_⟩
  · have hshort : (w.withoutDisabled.runValid registry world).summary.steps = records := hshort
    rw [hshort]
    exact hlong
  · exact Delivery.deliver_filter w Step.enabled fun step hstep hdisabled =>
      lookup_of_disabled hnames registry world hstep hdisabled

/-- The halting workflow does the same without the step that is skipped. -/
theorem run_withoutDisabled_halting :
    haltingWorkflow.validate = .ok () ∧
      (∃ step ∈ haltingWorkflow.steps, step.enabled = true) ∧
      ∃ short long, haltingWorkflow.withoutDisabled.run haltingRegistry 0 = .ok short ∧
        haltingWorkflow.run haltingRegistry 0 = .ok long ∧ short.Alike long ∧
        short.summary.statuses = [.captured, .captured, .failed, .pending] ∧
        long.summary.statuses = [.captured, .skipped, .captured, .failed, .pending] := by
  have hvalid : haltingWorkflow.validate = .ok () := rfl
  have henabled : ∃ step ∈ haltingWorkflow.steps, step.enabled = true :=
    ⟨_, List.mem_cons_self, rfl⟩
  obtain ⟨short, long, hshort, hlong, halike, hsteps, -⟩ :=
    run_withoutDisabled hvalid henabled haltingRegistry 0
  obtain rfl : _ = short := Except.ok.inj hshort
  refine ⟨hvalid, henabled, _, long, hshort, hlong, halike, by decide +kernel, ?_⟩
  rw [Summary.statuses, hsteps]
  decide +kernel

end Workflow

end Runbook
