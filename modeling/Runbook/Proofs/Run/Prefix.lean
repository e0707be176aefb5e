import Runbook.Proofs.Run.Alike
import Runbook.Proofs.Run.Standing

/-!
# Steps that are added at the end

A run sees its steps one after the other, and so the steps that are added at the end of a workflow
change nothing of what the run does before it comes to them.

The module introduces:

* `Workflow.goOn`: what further steps make of a run, which may have stopped;
* `RunState.Begins`, `Run.Begins`: the calls, results and records of one run are the first ones of
  another.

The main result is `Workflow.run_append`. It rests on `Workflow.turns_append`, a simulation of the
run of the shorter workflow by that of the longer one.
-/

namespace Runbook

variable {σ : Type}

/-- What one state of a run shows is what a later one shows first. -/
structure RunState.Begins (state last : RunState σ) : Prop where
  calls : state.calls <+: last.calls
  results : state.results <+: last.results
  records : state.records <+: last.records

namespace RunState

theorem Begins.refl (state : RunState σ) : state.Begins state :=
  ⟨List.prefix_refl _, List.prefix_refl _, List.prefix_refl _⟩

theorem Begins.trans {state next last : RunState σ} (h : state.Begins next)
    (hnext : next.Begins last) : state.Begins last :=
  ⟨h.calls.trans hnext.calls, h.results.trans hnext.results, h.records.trans hnext.records⟩

theorem Extends.begins {state next : RunState σ} {calls : List Call} {results : Results}
    {record : Record} {stop : Option Stop} (h : state.Extends next calls results record stop) :
    state.Begins next :=
  ⟨⟨calls, h.calls.symm⟩, ⟨results, h.results.symm⟩, ⟨[record], h.records.symm⟩⟩

end RunState

/-- What one run shows is what another shows first. -/
structure Run.Begins (run run' : Run σ) : Prop where
  /-- Its calls ask for what the first calls of the other ask for. -/
  calls : run.calls.map Call.request <+: run'.calls.map Call.request
  /-- The other captures the same first. -/
  results : run.results <+: run'.results
  /-- The records of its steps are the first records of the other. -/
  records : run.summary.steps <+: run'.summary.steps

namespace Workflow

/-- What further steps make of a run: they have their turns unless it has stopped, in which case
their records stay as they are. -/
def goOn (registry : Registry σ) (directory : Option Path) (state : RunState σ)
    (steps : List Step) : RunState σ :=
  match state.stop with
  | none => turns registry directory state steps
  | some _ => { state with records := state.records ++ steps.map Record.initial }

variable {registry : Registry σ} {directory : Option Path}

theorem goOn_of_stops {state : RunState σ} {stop : Stop} (h : state.stop = some stop)
    (steps : List Step) :
    goOn registry directory state steps =
      { state with records := state.records ++ steps.map Record.initial } := by
  simp only [goOn, h]

@[simp]
theorem goOn_nil (state : RunState σ) : goOn registry directory state [] = state := by
  unfold goOn
  split
  · rfl
  · simp

theorem goOn_cons {state : RunState σ} (h : state.stop = none) (step : Step)
    (later : List Step) :
    goOn registry directory state (step :: later) =
      goOn registry directory (turn registry directory state step later) later := by
  have hturns : goOn registry directory state (step :: later) =
      turns registry directory state (step :: later) := by
    simp only [goOn, h]
  rw [hturns]
  cases hstop : (turn registry directory state step later).stop with
  | none => rw [turns_of_goes_on hstop, goOn, hstop]
  | some stop => rw [turns_of_stops hstop, goOn_of_stops hstop]

section Begins

variable (state : RunState σ)

theorem turn_begins (step : Step) (later : List Step) :
    state.Begins (turn registry directory state step later) := by
  cases henabled : step.enabled with
  | false => exact (turn_disabled registry directory state step later henabled).1.begins
  | true =>
    cases houtcome : (turnService registry directory state step).outcome with
    | ok execution =>
      exact (turn_captured registry directory state step later henabled houtcome).1.begins
    | error stop =>
      obtain ⟨_, -, hturn, -⟩ := turn_stopped registry directory state step later henabled houtcome
      exact hturn.begins

/-- Further steps take nothing back. -/
theorem goOn_begins (steps : List Step) : state.Begins (goOn registry directory state steps) := by
  induction steps generalizing state with
  | nil =>
    rw [goOn_nil]
    exact .refl state
  | cons step later ih =>
    cases hstop : state.stop with
    | none =>
      rw [goOn_cons hstop]
      exact (turn_begins state step later).trans (ih _)
    | some stop =>
      rw [goOn_of_stops hstop]
      exact ⟨List.prefix_refl _, List.prefix_refl _, List.prefix_append _ _⟩

end Begins

/-- Giving the first of some steps their turns, and then the others, is giving all of them their
turns. The calls show the further steps as well, and so the state that the first steps lead to is
not the same in both runs, but it is alike and has the same records. -/
theorem goOn_append (registry : Registry σ) (directory : Option Path) {state state' : RunState σ}
    (h : state.Alike state') (hrecords : state'.records = state.records)
    (first second : List Step) :
    ∃ middle, (goOn registry directory state first).Alike middle ∧
      middle.records = (goOn registry directory state first).records ∧
      goOn registry directory state' (first ++ second) =
        goOn registry directory middle second := by
  induction first generalizing state state' with
  | nil =>
    rw [goOn_nil]
    exact ⟨state', h, hrecords, rfl⟩
  | cons step first ih =>
    cases hstop : state.stop with
    | none =>
      rw [List.cons_append, goOn_cons hstop, goOn_cons (h.stop.trans hstop)]
      -- The record of the turn is fixed by the results and the world, which are the same.
      have hrecord : (turn registry directory state' step (first ++ second)).records =
          (turn registry directory state step first).records := by
        rw [turn_records, turn_records, hrecords, h.results, h.world]
      exact ih (turn_alike h step first (first ++ second)) hrecord
    | some stop =>
      have hstop' := h.stop.trans hstop
      refine ⟨goOn registry directory state' (step :: first), ?_, ?_, ?_⟩
      · rw [goOn_of_stops hstop, goOn_of_stops hstop']
        exact ⟨h.world, h.results, h.calls, h.stop⟩
      · rw [goOn_of_stops hstop, goOn_of_stops hstop', hrecords]
      · -- A run that has stopped only gathers the records of the later steps.
        simp only [goOn, hstop', List.map_append, List.append_assoc]

/-- A run begins with what another one shows that came to a like state with the same records. -/
theorem close_begins (w w' : Workflow) {state middle last : RunState σ} (halike : state.Alike middle)
    (hrecords : middle.records = state.records) (h : middle.Begins last) :
    (w.close state).Begins (w'.close last) := by
  refine ⟨?_, ?_, ?_⟩
  · have hcalls := h.calls.map Call.request
    rw [halike.calls] at hcalls
    exact hcalls
  · have hresults := h.results
    rw [halike.results] at hresults
    exact hresults
  · have hsteps := h.records
    rw [hrecords] at hsteps
    exact hsteps

/-- Steps that are added at the end of a workflow change nothing of what it does before. Whether the
run of the shorter workflow comes to its end or stops, that of the longer one begins with the same
calls, results and records. If it stops, the longer one stops in the same turn, for the same reason,
with the same results and calls, and the added steps are never looked at. -/
theorem run_append {first second : List Step} {source : Option Path}
    (hvalid : (⟨first ++ second, source⟩ : Workflow).validate = .ok ()) (hfirst : first ≠ [])
    (registry : Registry σ) (world : σ) :
    ∃ short long, (⟨first, source⟩ : Workflow).run registry world = .ok short ∧
      (⟨first ++ second, source⟩ : Workflow).run registry world = .ok long ∧
      short.Begins long ∧
      ∀ stop, short.stop = some stop → short.Alike long ∧
        long.summary.steps = short.summary.steps ++ second.map Record.initial := by
  have hvalid' : (⟨first, source⟩ : Workflow).validate = .ok () :=
    validate_of_sublist hvalid (List.sublist_append_left first second) hfirst
  -- The longer run comes to a state like the last one of the shorter run and goes on from there.
  obtain ⟨middle, halike, hrecords, hmiddle⟩ :=
    goOn_append registry (source.map Path.parent)
      (start_alike ⟨first, source⟩ ⟨first ++ second, source⟩ world) rfl first second
  have hlong : (⟨first ++ second, source⟩ : Workflow).runValid registry world =
      close ⟨first ++ second, source⟩
        (goOn registry (source.map Path.parent) middle second) :=
    congrArg (close _) hmiddle
  refine ⟨_, _, run_of_validate hvalid' registry world, run_of_validate hvalid registry world,
    ?_, ?_⟩
  · rw [hlong]
    exact close_begins _ _ halike hrecords (goOn_begins middle second)
  · intro stop hstop
    have hmiddle : middle.stop = some stop := halike.stop.trans hstop
    rw [hlong, goOn_of_stops hmiddle]
    refine ⟨close_alike _ _ ?_, congrArg (· ++ second.map Record.initial) hrecords⟩
    exact ⟨halike.world, halike.results, halike.calls, halike.stop⟩

/-- The halting workflow is one with a loop, and with a disabled step, to which steps are added: it
begins with the calls for the first step and for the items of the loop. Without the step that is
never reached, it halts just the same. -/
theorem run_append_halting :
    haltingWorkflow.validate = .ok () ∧
      (∃ short long, (⟨haltingWorkflow.steps.take 3, none⟩ : Workflow).run haltingRegistry 0 =
          .ok short ∧ haltingWorkflow.run haltingRegistry 0 = .ok long ∧
        short.calls.length = 3 ∧ short.Begins long) ∧
      ∃ short long, (⟨haltingWorkflow.steps.take 4, none⟩ : Workflow).run haltingRegistry 0 =
          .ok short ∧ haltingWorkflow.run haltingRegistry 0 = .ok long ∧
        short.stop ≠ none ∧ short.Alike long := by
  have hvalid : haltingWorkflow.validate = .ok () := rfl
  refine ⟨hvalid, ?_, ?_⟩
  · have hvalid : (⟨haltingWorkflow.steps.take 3 ++ haltingWorkflow.steps.drop 3, none⟩ :
        Workflow).validate = .ok () := rfl
    obtain ⟨short, long, hshort, hlong, hbegins, -⟩ :=
      run_append hvalid (by decide) haltingRegistry 0
    obtain rfl : _ = short := Except.ok.inj hshort
    exact ⟨_, long, hshort, hlong, by decide +kernel, hbegins⟩
  · have hvalid : (⟨haltingWorkflow.steps.take 4 ++ haltingWorkflow.steps.drop 4, none⟩ :
        Workflow).validate = .ok () := rfl
    obtain ⟨short, long, hshort, hlong, -, hstopped⟩ :=
      run_append hvalid (by decide) haltingRegistry 0
    obtain rfl : _ = short := Except.ok.inj hshort
    have hstop : (Workflow.runValid ⟨haltingWorkflow.steps.take 4, none⟩ haltingRegistry 0).stop =
        some (.failed ⟨"last", .invocation, none, .call (.raised "ValueError" "no more")⟩) := by
      decide +kernel
    refine ⟨_, long, hshort, hlong, ?_, (hstopped _ hstop).1⟩
    rw [hstop]
    exact Option.some_ne_none _

end Workflow

end Runbook
