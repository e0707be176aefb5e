import Runbook.Document.Loader
import Runbook.Proofs.Loop.Discovery
import Runbook.Proofs.Reference.Agreement
import Runbook.Proofs.Run.Standing

/-!
# Forward references

Loading a document warns of placeholders that name no step declared before them. The warnings tell
what will happen: a step that is warned of never gets as far as a call, and where nothing is warned
of and no step is disabled, every placeholder finds the step that it names.

The main result is `Document.forwardReferences_sound`.
-/

namespace Runbook

open Reference Document

variable {σ : Type}

/-! ## What a step needs -/

namespace Step

variable {s : Step} {directory : Option Path} {results : Results}

/-- A step makes out its requests only if all its placeholders can be followed. -/
theorem firstFault_of_requests {requests : List Request}
    (h : s.requests directory results = .ok requests) :
    firstFault results (references s) = none := by
  obtain ⟨⟨resolved, hresolved⟩, hloop⟩ := requests_ok h
  have hparameters : firstFault results (ofEntries s.parameters) = none := by
    rw [← Substitution.fault_inEntries, hresolved]
    rfl
  rw [references, firstFault_append, hparameters, Option.none_or]
  cases hs : s.loop with
  | none => rfl
  | some loop =>
    obtain ⟨items, hitems⟩ := hloop loop hs
    simp only [← Substitution.fault_inText]
    unfold Loop.discover at hitems
    cases hinput : Substitution.inText results loop.inputData with
    | error e => rw [hinput] at hitems; cases hitems
    | ok input => rfl

/-- A step that fails for a placeholder before it asks for anything has that placeholder. -/
theorem fault_of_requests {failure : StepFailure} {reason : Pointer.Unresolved}
    (h : s.requests directory results = .error (.failed failure))
    (hcause : failure.cause = .unresolved reason) :
    ∃ r ∈ references s, fault results r = some (.unresolved reason) := by
  have hreason {index : Option Nat} {e : Pointer.Error}
      (he : .failed failure = s.stopAt index e) : e = .unresolved reason := by
    obtain ⟨found, rfl, rfl⟩ := stopAt_failed he.symm
    cases hcause
    rfl
  rcases requests_error h with ⟨loop, e, hloop, hitems, hstop⟩ | ⟨index, e, hresolved, hstop⟩
  -- The first placeholder of the loop's input that cannot be followed.
  · cases e with
    | pointer e =>
      have hinput := fault_eq_some_iff.mpr (Loop.discover_eq_pointer_iff.mp hitems)
      rw [Substitution.fault_inText, hreason hstop] at hinput
      obtain ⟨r, hr, hfault⟩ := List.exists_of_findSome?_eq_some hinput
      refine ⟨r, List.mem_append_right _ ?_, hfault⟩
      simp only [hloop]
      exact hr
    | noArrayField => cases hstop; cases hcause
    | noItems => cases hstop; cases hcause
  -- The first one of the parameters.
  · have hparameters := fault_eq_some_iff.mpr hresolved
    rw [Substitution.fault_inEntries, hreason hstop] at hparameters
    obtain ⟨r, hr, hfault⟩ := List.exists_of_findSome?_eq_some hparameters
    exact ⟨r, List.mem_append_left _ hr, hfault⟩

/-- A step fails for a placeholder only before it asks for anything. -/
theorem requests_of_perform_failed {registry : Registry σ} {admitted : Request → Bool}
    {world : σ} {failure : StepFailure} {reason : Pointer.Unresolved}
    (h : (s.perform registry admitted directory results world).outcome =
      .error (.failed failure)) (hcause : failure.cause = .unresolved reason) :
    s.requests directory results = .error (.failed failure) := by
  rcases perform_error h with hrequests | ⟨_, _, _, _, _, hstop⟩ | hstop
  · exact hrequests
  · cases hstop
    cases hcause
  · cases hstop

end Step

/-! ## What loading promises -/

namespace Document

/-- Further problems are only missing if there are none at all. -/
theorem withFurther_eq_nil {problems further : List Problem}
    (h : withFurther problems further = []) : problems = [] ∧ further = [] := by
  induction further generalizing problems with
  | nil => exact ⟨h, rfl⟩
  | cons p further ih =>
    rw [withFurther] at h
    split at h
    -- A problem is left out only if an earlier one has its wording.
    · rename_i hany
      obtain ⟨rfl, -⟩ := ih h
      cases hany
    · simpa using (ih h).1

/-- A workflow that is loaded is valid. -/
theorem validate_of_toWorkflow {document : Value} {sourcePath : Option Path} {w : Workflow}
    (h : (toWorkflow document sourcePath).outcome = .ok w) : w.validate = .ok () := by
  have hdefined : (define document sourcePath).outcome = .ok w := by
    unfold toWorkflow Loading.withReferences at h
    split at h
    · exact h
    · exact h
  have hworkflow {entries : Entries} {items : List Value}
      (hof : (workflowOf sourcePath entries items).outcome = .ok w) : w.validate = .ok () := by
    unfold workflowOf at hof
    simp only at hof
    split at hof
    · cases hof
    · split at hof
      · rename_i hproblems
        cases hof
        exact Workflow.validate_eq_ok_iff.mpr (withFurther_eq_nil hproblems).2
      · cases hof
  unfold define at hdefined
  split at hdefined
  · simp only at hdefined
    split at hdefined
    · cases hdefined
    · split at hdefined
      · exact hworkflow hdefined
      · cases hdefined
  · cases hdefined

/-- What is logged of forward references comes last. -/
theorem log_of_toWorkflow {document : Value} {sourcePath : Option Path} {w : Workflow}
    (h : (toWorkflow document sourcePath).outcome = .ok w) :
    (toWorkflow document sourcePath).log =
      (define document sourcePath).log ++ forwardReferences [] w.steps := by
  unfold toWorkflow Loading.withReferences at h ⊢
  split at h
  · rename_i hdefined
    simp only [hdefined] at h ⊢
    cases h
    rfl
  · rename_i hdefined
    rw [hdefined] at h
    cases h

/-- Every warning is of one of the steps and of the steps before it. -/
theorem mem_forwardReferences_iff {declared : List String} {steps : List Step}
    {entry : LogEntry} :
    entry ∈ forwardReferences declared steps ↔
      ∃ before step after, steps = before ++ step :: after ∧
        entry ∈ forwardWarnings (declared ++ before.map Step.name) step := by
  induction steps generalizing declared with
  | nil => simp [forwardReferences]
  | cons first steps ih =>
    rw [forwardReferences, List.mem_append, ih]
    constructor
    · rintro (hentry | ⟨before, step, after, rfl, hentry⟩)
      · exact ⟨[], first, steps, rfl, by simpa using hentry⟩
      · refine ⟨first :: before, step, after, rfl, ?_⟩
        simpa using hentry
    · rintro ⟨before, step, after, hsteps, hentry⟩
      cases before with
      | nil =>
        obtain ⟨rfl, rfl⟩ := List.cons.inj hsteps
        exact .inl (by simpa using hentry)
      | cons head before =>
        obtain ⟨rfl, rfl⟩ := List.cons.inj hsteps
        exact .inr ⟨before, step, after, rfl, by simpa using hentry⟩

/-- A step is warned of for a placeholder of it that names no step declared before. -/
theorem exists_of_forwardWarnings {declared : List String} {step : Step}
    (h : forwardWarnings declared step ≠ []) : ∃ r ∈ references step, r.step ∉ declared := by
  unfold forwardWarnings at h
  cases hundeclared : (references step).filter fun r => !declared.contains r.step with
  | nil =>
    rw [hundeclared] at h
    exact absurd rfl h
  | cons r rest =>
    have hr := List.mem_filter.mp (hundeclared ▸ List.mem_cons_self)
    exact ⟨r, hr.1, by simpa using hr.2⟩

/-- The placeholders of a step that is not warned of name steps declared before. -/
theorem mem_of_forwardWarnings {declared : List String} {step : Step}
    (h : forwardWarnings declared step = []) {r : Reference} (hr : r ∈ references step) :
    r.step ∈ declared := by
  unfold forwardWarnings at h
  rw [List.flatMap_eq_nil_iff] at h
  by_cases hdeclared : r.step ∈ declared
  · exact hdeclared
  · have hnone := h r (List.mem_filter.mpr ⟨hr, by simpa using hdeclared⟩)
    cases hnone

end Document

/-! ## What happens in a run -/

namespace Workflow

variable {w : Workflow} {registry : Registry σ} {world : σ} {before after reached later : List Step}
  {state : RunState σ} {step : Step}

/-- A step whose turn has passed had its turn in a state that the run came through. -/
theorem Reaches.passed (h : w.Reaches registry world reached state later)
    (hreached : reached = before ++ step :: after) :
    ∃ state', w.Reaches registry world before state' (step :: after ++ later) ∧
      (turn registry w.baseDirectory state' step (after ++ later)).stop = none := by
  induction h generalizing after with
  | start => simp at hreached
  | @next reached state last later hreaches hstop ih =>
    -- The step is the one whose turn has just passed, or an earlier one.
    rcases List.eq_nil_or_concat after with rfl | ⟨after, last', rfl⟩
    · obtain ⟨rfl, hlast⟩ := List.append_inj' hreached rfl
      obtain rfl : last = step := List.head_eq_of_cons_eq hlast
      exact ⟨state, hreaches, hstop⟩
    · have hsplit : reached ++ [last] = (before ++ step :: after) ++ [last'] := by
        simpa using hreached
      obtain ⟨rfl, hlast⟩ := List.append_inj' hsplit rfl
      obtain rfl : last = last' := List.head_eq_of_cons_eq hlast
      obtain ⟨state', hstate', hstop'⟩ := ih rfl
      exact ⟨state', by simpa using hstate', by simpa using hstop'⟩

/-- A step that is warned of cannot make out its requests in its turn. -/
theorem Reaches.requests_of_warned (h : w.Reaches registry world before state (step :: after))
    (hwarned : forwardWarnings (before.map Step.name) step ≠ []) :
    ∃ stop, step.requests w.baseDirectory state.results = .error stop := by
  obtain ⟨r, hr, hundeclared⟩ := exists_of_forwardWarnings hwarned
  have hfault : fault state.results r = some (.unresolved (.missingStep r.step)) := by
    rw [fault, Pointer.resolve_of_lookup_eq_none r.output (h.settled.lookup_eq_none hundeclared)]
    rfl
  cases hrequests : step.requests w.baseDirectory state.results with
  | error stop => exact ⟨stop, rfl⟩
  | ok requests =>
    have hnone := List.findSome?_eq_none_iff.mp (Step.firstFault_of_requests hrequests) r hr
    cases hnone.symm.trans hfault

/-- The turn of a step that is warned of does not pass. -/
theorem Reaches.not_mem_of_warned (hnames : (w.steps.map Step.name).Nodup)
    (hsteps : w.steps = before ++ step :: after) (henabled : step.enabled = true)
    (hwarned : forwardWarnings (before.map Step.name) step ≠ [])
    (h : w.Reaches registry world reached state later) : step.name ∉ reached.map Step.name := by
  intro hmem
  -- By its name the step that passed is the one that is warned of.
  obtain ⟨same, hsame, hname⟩ := List.mem_map.mp hmem
  obtain ⟨earlier, between, rfl⟩ := List.append_of_mem hsame
  obtain ⟨state', hstate', hpassed⟩ := h.passed rfl
  obtain ⟨rfl, rfl, -⟩ := split_unique (hstate'.steps_eq ▸ hnames)
    (hstate'.steps_eq.symm.trans hsteps) hname
  obtain ⟨stop, hrequests⟩ := hstate'.requests_of_warned hwarned
  have hstop : (turnService registry w.baseDirectory state' same).outcome = .error stop := by
    rw [turnService, Step.perform_of_error hrequests]
  rcases turn_goes_on registry w.baseDirectory state' same (between ++ later) hstate'.stop_eq
    hpassed with ⟨hdisabled, -⟩ | ⟨-, execution, houtcome, -⟩
  · cases hdisabled.symm.trans henabled
  · cases houtcome.symm.trans hstop

/-- No call is made for a step that is warned of. -/
theorem stepName_ne_of_warned (hnames : (w.steps.map Step.name).Nodup)
    (hsteps : w.steps = before ++ step :: after)
    (hwarned : forwardWarnings (before.map Step.name) step ≠ []) {c : Call}
    (hc : c ∈ (w.runValid registry world).calls) : c.context.stepName ≠ step.name := by
  intro hname
  obtain ⟨before', state, step', after', hstands⟩ := callStands_of_mem hc
  have hsplit := hstands.reached.steps_eq
  obtain ⟨rfl, rfl, rfl⟩ := split_unique (hsteps ▸ hnames) (hsteps.symm.trans hsplit)
    (hname.symm.trans hstands.stepName)
  obtain ⟨stop, hrequests⟩ := hstands.reached.requests_of_warned hwarned
  have hmade := hstands.made
  rw [calls_of_run, turnCalls, turnService, Step.perform_of_error hrequests] at hmade
  cases hmade

/-- Nothing is captured for a step that is warned of. -/
theorem lookup_of_warned (hnames : (w.steps.map Step.name).Nodup)
    (hsteps : w.steps = before ++ step :: after) (henabled : step.enabled = true)
    (hwarned : forwardWarnings (before.map Step.name) step ≠ []) :
    (w.runValid registry world).results.lookup step.name = none := by
  rcases runValid_ends w registry world with
    ⟨state, hreached, hrun⟩ | ⟨before', state, step', after', stop, hreached, hstop, hrun⟩
  · rw [hrun]
    exact hreached.settled.lookup_eq_none
      (hreached.not_mem_of_warned hnames hsteps henabled hwarned)
  · rw [hrun, (hreached.settled.results_stopped hreached hstop).1]
    exact hreached.settled.lookup_eq_none
      (hreached.not_mem_of_warned hnames hsteps henabled hwarned)

/-- The record of a step that is warned of never shows it captured. -/
theorem status_ne_of_warned (hnames : (w.steps.map Step.name).Nodup)
    (hsteps : w.steps = before ++ step :: after) (henabled : step.enabled = true)
    (hwarned : forwardWarnings (before.map Step.name) step ≠ []) {r : Record}
    (hr : r ∈ (w.runValid registry world).summary.steps) (hname : r.name = step.name) :
    r.status ≠ .captured := by
  intro hcaptured
  have hnone : (w.runValid registry world).results.lookup step.name = none :=
    lookup_of_warned hnames hsteps henabled hwarned
  rw [runValid_results, List.lookup_eq_none_iff] at hnone
  have hmem : (r.name, r.outputs) ∈ capturedIn (w.runValid registry world).summary.steps :=
    List.mem_map.mpr ⟨r, List.mem_filter.mpr ⟨hr, by simp [hcaptured]⟩, rfl⟩
  have hne := hnone _ hmem
  simp [hname] at hne

/-- Where nothing is warned of and no step is disabled, no step that a placeholder names has
captured nothing. -/
theorem cause_ne_missingStep (hwarnings : forwardReferences [] w.steps = [])
    (henabled : ∀ step ∈ w.steps, step.enabled = true) {failure : StepFailure}
    (hfailure : (w.runValid registry world).stop = some (.failed failure)) (name : String) :
    failure.cause ≠ .unresolved (.missingStep name) := by
  intro hcause
  rcases runValid_ends w registry world with
    ⟨state, hreached, hrun⟩ | ⟨before, state, step, after, stop, hreached, hstop, hrun⟩
  · rw [hrun] at hfailure
    cases hreached.stop_eq.symm.trans hfailure
  · rw [hrun] at hfailure
    obtain rfl : stop = .failed failure := Option.some.inj (hstop.symm.trans hfailure)
    obtain ⟨-, houtcome, -⟩ :=
      turn_ends registry w.baseDirectory state step after hreached.stop_eq hstop
    -- The step has a placeholder that names a step without results.
    obtain ⟨r, hr, hfault⟩ :=
      Step.fault_of_requests (Step.requests_of_perform_failed houtcome hcause) hcause
    obtain ⟨-, hmissing⟩ := Pointer.lookup_of_missingStep (fault_eq_some_iff.mp hfault)
    -- That step was declared before and is enabled, and so it has results.
    have hquiet : forwardWarnings (before.map Step.name) step = [] := by
      rw [hreached.steps_eq, List.eq_nil_iff_forall_not_mem] at hwarnings
      refine List.eq_nil_iff_forall_not_mem.mpr fun entry hentry => hwarnings entry ?_
      exact mem_forwardReferences_iff.mpr ⟨before, step, after, rfl, by simpa using hentry⟩
    have hdeclared := mem_of_forwardWarnings hquiet hr
    have hall : enabledNames before = before.map Step.name := by
      rw [enabledNames, List.filter_eq_self.mpr]
      intro step hstep
      exact henabled step (hreached.steps_eq ▸ List.mem_append_left _ hstep)
    rw [← hall] at hdeclared
    exact hreached.settled.lookup_ne_none hdeclared hmissing

end Workflow

/-- What loading says of forward references holds of every run. If nothing is warned of and no step
is disabled, then no run fails because a placeholder names a step without results. A step that is
warned of is never called and never captured. -/
theorem Document.forwardReferences_sound {document : Value} {sourcePath : Option Path}
    {w : Workflow} (hloaded : (toWorkflow document sourcePath).outcome = .ok w)
    (registry : Registry σ) (world : σ) :
    (toWorkflow document sourcePath).log =
        (define document sourcePath).log ++ forwardReferences [] w.steps ∧
      ∃ run, w.run registry world = .ok run ∧
        (forwardReferences [] w.steps = [] → (∀ step ∈ w.steps, step.enabled = true) →
          ∀ failure, run.stop = some (.failed failure) →
            ∀ name, failure.cause ≠ .unresolved (.missingStep name)) ∧
        ∀ before step after, w.steps = before ++ step :: after → step.enabled = true →
          forwardWarnings (before.map Step.name) step ≠ [] →
          (∀ c ∈ run.calls, c.context.stepName ≠ step.name) ∧
            run.results.lookup step.name = none ∧
            ∀ r ∈ run.summary.steps, r.name = step.name → r.status ≠ .captured := by
  have hvalid := validate_of_toWorkflow hloaded
  have hnames := Workflow.nodup_names hvalid
  refine ⟨log_of_toWorkflow hloaded, w.runValid registry world,
    Workflow.run_of_validate hvalid registry world, ?_, ?_⟩
  · intro hwarnings henabled failure hfailure
    exact Workflow.cause_ne_missingStep hwarnings henabled hfailure
  · intro before step after hsteps henabled hwarned
    refine ⟨?_, Workflow.lookup_of_warned hnames hsteps henabled hwarned, ?_⟩
    · intro c hc
      exact Workflow.stepName_ne_of_warned hnames hsteps hwarned hc
    · intro r hr hname
      exact Workflow.status_ne_of_warned hnames hsteps henabled hwarned hr hname

/-- A document whose first step, a loop, refers to the step after it. -/
def Document.earlyDocument : Value :=
  .map [(.text "Steps", .list [
    .map [(.text "Name", .text "Early"), (.text "Type", .text "echo"),
      (.text "Enabled", .bool true),
      (.text "Parameters", .map [(.text "text", .text "say {Late.Result}")]),
      (.text "Loop", .map [(.text "input_data", .text "x,y"), (.text "item_name", .text "item")])],
    .map [(.text "Name", .text "Late"), (.text "Type", .text "echo"),
      (.text "Enabled", .bool true)]])]

/-- The document is accepted with a warning, and its first step is never called. -/
theorem Document.forwardReferences_sound_early :
    ∃ w, (toWorkflow earlyDocument none).outcome = .ok w ∧
      forwardReferences [] w.steps ≠ [] ∧
      ∃ run, w.run Workflow.haltingRegistry 0 = .ok run ∧
        (∀ c ∈ run.calls, c.context.stepName ≠ "Early") ∧
        run.results.lookup "Early" = none := by
  refine ⟨_, rfl, by decide +kernel, ?_⟩
  obtain ⟨-, run, hrun, -, hwarned⟩ :=
    @forwardReferences_sound _ earlyDocument none _ rfl Workflow.haltingRegistry 0
  have hearly := hwarned [] _ _ rfl rfl (by decide +kernel)
  exact ⟨run, hrun, hearly.1, hearly.2.1⟩

end Runbook
