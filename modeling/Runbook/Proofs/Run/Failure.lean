import Runbook.Proofs.Reference.Agreement
import Runbook.Proofs.Run.Standing

/-!
# The step that fails

A run fails with one of its steps, at one of two stages. While the parameters and the items of a
step are made out, nothing has been asked of its operation yet, so that a step which fails there
leaves no call behind. Once the requests of a step are known, they are made in order, and a step
that fails then fails at the first of them that yields no text.

The module introduces:

* `Registry.Answers`: requests that are answered one after the other, each with a text;
* `Workflow.FailsUnasked`: the failure of a step that has made no calls;
* `Workflow.FailsAtRequest`: the failure of a step at one of its requests, after others have been
  answered.

The main result is `Workflow.run_failure`.
-/

namespace Runbook

variable {σ : Type}

/-! ## Requests that are answered -/

namespace Registry

/-- Requests are answered one after the other, each with a text. -/
inductive Answers (registry : Registry σ) : List Request → σ → List String → σ → Prop
  | nil {world : σ} : Answers registry [] world [] world
  | cons {r : Request} {rs : List Request} {world next last : σ} {text : String}
      {texts : List String} :
      registry.answer r world = (.ok text, next) → Answers registry rs next texts last →
      Answers registry (r :: rs) world (text :: texts) last

/-- An operation that no name is registered for is not found. -/
theorem get?_eq_none_of_has {registry : Registry σ} {name : String}
    (h : registry.has name = false) : registry.get? name = none := by
  unfold has at h
  rw [get?, List.lookup_eq_none_iff]
  intro entry hentry
  refine bne_iff_ne.mpr fun hname => ?_
  have hne := List.any_eq_false.mp h entry hentry
  exact hne (beq_of_eq hname.symm)

/-- Only requests for operations that are registered are answered with a text. -/
theorem Answers.has {registry : Registry σ} {requests : List Request} {world last : σ}
    {texts : List String} (h : registry.Answers requests world texts last) {r : Request}
    (hr : r ∈ requests) : registry.has r.operation = true := by
  induction h with
  | nil => cases hr
  | @cons first rs world next last text texts hfirst _ ih =>
    rcases List.mem_cons.mp hr with rfl | hr
    · cases hhas : registry.has r.operation with
      | true => rfl
      | false =>
        rw [answer, invoke, get?_eq_none_of_has hhas] at hfirst
        cases hfirst
    · exact ih hr

/-- A request that yields a text was admitted, and it is all that was made. -/
theorem serveOne_ok {registry : Registry σ} {admitted : Request → Bool} {r : Request} {world : σ}
    {text : String} (h : (registry.serveOne admitted r world).outcome = .ok text) :
    admitted r = true ∧ (registry.serveOne admitted r world).made = [r] ∧
      registry.answer r world = (.ok text, (registry.serveOne admitted r world).world) := by
  unfold serveOne at h ⊢
  split at h
  · rename_i hadmitted
    rw [if_pos hadmitted]
    rcases hanswer : registry.answer r world with ⟨failure | found, next⟩ <;>
      rw [hanswer] at h <;> cases h
    exact ⟨hadmitted, rfl, rfl⟩
  · cases h

/-- Once requests have been answered, those after them decide what comes of all. -/
theorem Answers.serve_append {registry : Registry σ} {admitted : Request → Bool}
    {done rest : List Request} {world now : σ} {texts : List String}
    (h : registry.Answers done world texts now) (hadmitted : ∀ q ∈ done, admitted q = true) :
    (registry.serve admitted (done ++ rest) world).outcome =
      (registry.serve admitted rest now).outcome.map (texts ++ ·) := by
  induction h with
  | nil =>
    rw [List.nil_append]
    cases (registry.serve admitted rest _).outcome <;> rfl
  | @cons r rs world next last text texts hfirst _ ih =>
    have hone : registry.serveOne admitted r world = ⟨[r], .ok text, next⟩ := by
      rw [serveOne, if_pos (hadmitted r List.mem_cons_self), hfirst]
      rfl
    rw [List.cons_append, serve, hone, Service.bind_of_ok rfl]
    simp only [Service.map, ih fun q hq => hadmitted q (List.mem_cons_of_mem r hq)]
    cases (registry.serve admitted rest last).outcome <;> rfl

/-- Requests stop at one of them, after those before it have been answered: it yields no text, or
it is not admitted and is not made. -/
theorem serve_stops {registry : Registry σ} {admitted : Request → Bool} {requests : List Request}
    {world : σ} {stop : Stop}
    (h : (registry.serve admitted requests world).outcome = .error stop) :
    ∃ done r rest texts now, requests = done ++ r :: rest ∧
      registry.Answers done world texts now ∧ (∀ q ∈ done, admitted q = true) ∧
      ((admitted r = true ∧ (registry.serve admitted requests world).made = done ++ [r] ∧
          ∃ reason, (registry.answer r now).1 = .error reason ∧ stop = r.stop reason) ∨
        (admitted r = false ∧ (registry.serve admitted requests world).made = done ∧
          stop = .broken .tooLongToWrite)) := by
  induction requests generalizing world with
  | nil => cases h
  | cons r rs ih =>
    rw [serve] at h ⊢
    cases hfirst : (registry.serveOne admitted r world).outcome with
    | error found =>
      -- Nothing is asked for after a request that stops.
      rw [Service.bind_of_error hfirst] at h ⊢
      cases h
      refine ⟨[], r, rs, [], world, rfl, .nil, by simp, ?_⟩
      unfold serveOne at hfirst ⊢
      cases hadmitted : admitted r with
      | false =>
        rw [hadmitted] at hfirst
        cases hfirst
        exact .inr ⟨rfl, rfl, rfl⟩
      | true =>
        rw [hadmitted] at hfirst
        rcases hanswer : registry.answer r world with ⟨reason | text, next⟩ <;>
          rw [hanswer] at hfirst <;> cases hfirst
        exact .inl ⟨rfl, rfl, reason, rfl, rfl⟩
    | ok text =>
      obtain ⟨hadmitted, hmade, hanswer⟩ := serveOne_ok hfirst
      rw [Service.bind_of_ok hfirst] at h ⊢
      cases hrest : (registry.serve admitted rs
          (registry.serveOne admitted r world).world).outcome with
      | ok texts => simp [Service.map, hrest, Except.map] at h
      | error found =>
        simp only [Service.map, hrest, Except.map, Except.error.injEq] at h
        subst h
        obtain ⟨done, q, rest, texts, now, rfl, hdone, hall, hends⟩ := ih hrest
        refine ⟨r :: done, q, rest, text :: texts, now, rfl, .cons hanswer hdone, ?_, ?_⟩
        · intro p hp
          rcases List.mem_cons.mp hp with rfl | hp
          · exact hadmitted
          · exact hall p hp
        · simp only [Service.map, hmade]
          rcases hends with ⟨hq, hmade, hreason⟩ | ⟨hq, hmade, hstop⟩
          · exact .inl ⟨hq, by rw [hmade]; rfl, hreason⟩
          · exact .inr ⟨hq, by rw [hmade]; rfl, hstop⟩

end Registry

/-! ## The position of a failure -/

/-- Whether an item can be put into parameters, and the error if it cannot, is the same for all
items: placeholders are replaced before the item is put in. -/
theorem Loop.fault_applyItem (loop : Loop) (parameters : Parameters) (item item' : String)
    (results : Results) :
    fault? (loop.applyItem parameters item results) =
      fault? (loop.applyItem parameters item' results) := by
  rw [applyItem, applyItem, fault_map, fault_map]

namespace Step

variable {s : Step} {directory : Option Path} {results : Results}

/-- The position of an item at which a step fails whose requests cannot be made out: the first one,
if the step has items. -/
def expansionIndex (s : Step) (results : Results) : Option Nat :=
  match s.loop with
  | none => none
  | some loop =>
    match loop.discover results with
    | .ok _ => some 0
    | .error _ => none

theorem loopIndex_of_stopAt {index : Option Nat} {e : Pointer.Error} {failure : StepFailure}
    (h : s.stopAt index e = .failed failure) : failure.loopIndex = index := by
  obtain ⟨_, _, rfl⟩ := stopAt_failed h
  rfl

theorem loopIndex_of_stopDiscovery {e : Loop.Error} {failure : StepFailure}
    (h : s.stopDiscovery e = .failed failure) : failure.loopIndex = none := by
  cases e with
  | pointer e => exact loopIndex_of_stopAt h
  | noArrayField => cases h; rfl
  | noItems => cases h; rfl

/-- A step that cannot make out its requests fails at no item but the first. -/
theorem loopIndex_of_requests {failure : StepFailure}
    (h : s.requests directory results = .error (.failed failure)) :
    failure.loopIndex = s.expansionIndex results := by
  unfold expansionIndex
  cases hloop : s.loop with
  | none =>
    rw [requests_of_single hloop] at h
    cases hresolved : Substitution.inEntries results s.parameters with
    | error e =>
      rw [hresolved] at h
      exact loopIndex_of_stopAt (Except.error.inj h)
    | ok resolved => rw [hresolved] at h; cases h
  | some loop =>
    rw [requests_of_loop hloop] at h
    cases hitems : loop.discover results with
    | error e =>
      rw [Loop.expand_of_discover hitems] at h
      have hstop : s.stopExpansion loop results e = .failed failure := Except.error.inj h
      simp only [stopExpansion, hitems] at hstop ⊢
      exact loopIndex_of_stopDiscovery hstop
    | ok items =>
      cases hresolved : Substitution.inEntries results s.parameters with
      | error e =>
        rw [Loop.expand_of_error hitems hresolved] at h
        have hstop : s.stopExpansion loop results (.pointer e) = .failed failure :=
          Except.error.inj h
        simp only [stopExpansion, hitems] at hstop ⊢
        exact loopIndex_of_stopAt hstop
      | ok resolved => rw [Loop.expand_of_ok hitems hresolved] at h; cases h

/-- The request for an item carries the position of the item, which is that of the request. -/
theorem loopIndex_of_requests_split {done rest : List Request} {r : Request}
    (h : s.requests directory results = .ok (done ++ r :: rest)) :
    r.context.loopIndex = s.loop.map fun _ => done.length := by
  cases hloop : s.loop with
  | none =>
    rw [requests_of_single hloop] at h
    cases hresolved : Substitution.inEntries results s.parameters with
    | error e => rw [hresolved] at h; cases h
    | ok parameters =>
      rw [hresolved] at h
      have hall := Except.ok.inj h
      -- The only request is the one in question.
      cases done with
      | nil =>
        obtain ⟨rfl, -⟩ := List.cons.inj hall
        rfl
      | cons first done => simp at hall
  | some loop =>
    rw [requests_of_loop hloop] at h
    cases hexpand : loop.expand s.parameters results with
    | error e => rw [hexpand] at h; cases h
    | ok all =>
      rw [hexpand] at h
      have hall : s.itemRequests directory 0 all = done ++ r :: rest := Except.ok.inj h
      have hat : (s.itemRequests directory 0 all)[done.length]? = some r := by
        rw [hall]
        simp
      rw [itemRequests, List.getElem?_map] at hat
      obtain ⟨⟨parameters, i⟩, hget, rfl⟩ := Option.map_eq_some_iff.mp hat
      rw [List.getElem?_zipIdx] at hget
      obtain ⟨_, -, hpair⟩ := Option.map_eq_some_iff.mp hget
      have hi : i = done.length := by simpa using (congrArg Prod.snd hpair).symm
      rw [hi]
      rfl

end Step

/-! ## The calls of the step that fails -/

/-- The calls that are made in the name of a step. -/
def callsFor (name : String) (calls : List Call) : List Call :=
  calls.filter (·.context.stepName == name)

namespace Workflow

variable {w : Workflow} {registry : Registry σ} {world : σ} {before after : List Step}
  {state : RunState σ} {step : Step}

/-- The calls of a turn are made in the name of the step. -/
theorem stepName_of_mem_turnCalls {directory : Option Path} {later : List Step} {c : Call}
    (hc : c ∈ turnCalls registry directory state step later) : c.context.stepName = step.name := by
  obtain ⟨r, hr, rfl⟩ := List.mem_map.mp hc
  obtain ⟨requests, hrequests, hmem⟩ := Step.mem_requests_of_made (List.mem_filter.mp hr).1
  exact (Step.of_mem_requests hrequests hmem).2

/-- All calls that have been made are made in the names of steps that had their turns. -/
theorem Reaches.stepName_mem (h : w.Reaches registry world before state after) {c : Call}
    (hc : c ∈ state.calls) : c.context.stepName ∈ before.map Step.name := by
  induction h with
  | start => cases hc
  | @next before state step after hreached hstop ih =>
    rw [List.map_append]
    rcases turn_goes_on registry w.baseDirectory state step after hreached.stop_eq hstop with
      ⟨-, hturn, -⟩ | ⟨-, execution, -, hturn, -⟩
    · rw [hturn.calls, List.append_nil] at hc
      exact List.mem_append_left _ (ih hc)
    · rw [hturn.calls] at hc
      rcases List.mem_append.mp hc with hc | hc
      · exact List.mem_append_left _ (ih hc)
      · rw [stepName_of_mem_turnCalls hc]
        exact List.mem_append_right _ List.mem_cons_self

/-- The calls in the name of the step at which a run stops are those of its turn. -/
theorem Reaches.callsFor_stopped (hnames : (w.steps.map Step.name).Nodup)
    (h : w.Reaches registry world before state (step :: after)) {stop : Stop}
    (hstop : (turn registry w.baseDirectory state step after).stop = some stop) :
    callsFor step.name (w.close (stoppedState w registry state step after)).calls =
      turnCalls registry w.baseDirectory state step after := by
  obtain ⟨-, -, record, -, hturn, -⟩ :=
    turn_ends registry w.baseDirectory state step after h.stop_eq hstop
  have hcalls : (w.close (stoppedState w registry state step after)).calls =
      state.calls ++ turnCalls registry w.baseDirectory state step after := hturn.calls
  rw [hcalls, callsFor, List.filter_append]
  -- The steps before have other names.
  have hearlier : state.calls.filter (·.context.stepName == step.name) = [] := by
    refine List.filter_eq_nil_iff.mpr fun c hc hname => ?_
    have hmem := h.stepName_mem hc
    rw [eq_of_beq hname] at hmem
    rw [h.steps_eq, List.map_append, List.map_cons] at hnames
    exact (List.nodup_append.mp hnames).2.2 _ hmem _ List.mem_cons_self rfl
  rw [hearlier, List.nil_append, List.filter_eq_self]
  intro c hc
  exact beq_of_eq (stepName_of_mem_turnCalls hc)

/-- A step failed before anything was asked of its operation. -/
structure FailsUnasked (run : Run σ) (results : Results) (step : Step) (failure : StepFailure) :
    Prop where
  /-- No call was made for the step. -/
  calls : callsFor step.name run.calls = []
  /-- The failure is at no item, or at the first one of a loop whose items were found. -/
  loopIndex : failure.loopIndex = step.expansionIndex results

/-- A step failed at the request `r`, after the requests `done`. -/
structure FailsAtRequest (w : Workflow) (registry : Registry σ) (run : Run σ) (state : RunState σ)
    (step : Step) (failure : StepFailure) (done : List Request) (r : Request) : Prop where
  /-- The requests are the first ones of the step. -/
  requests : ∃ rest, step.requests w.baseDirectory state.results = .ok (done ++ r :: rest)
  /-- Those before were answered with texts, one after the other, and the last one was not. -/
  answers : ∃ texts now reason, registry.Answers done state.world texts now ∧
    (registry.answer r now).1 = .error reason ∧ failure.cause = .call reason
  /-- The failure is at the item of the request, if the step has a loop. -/
  loopIndex : failure.loopIndex = step.loop.map fun _ => done.length
  /-- The calls for the step are those requests; an operation that is not registered is not called.
  -/
  calls : (callsFor step.name run.calls).map Call.request =
    done ++ [r].filter fun r => registry.has r.operation

/-- A step that cannot make out its requests has made no calls when the run stops. -/
theorem Reaches.failsUnasked (hnames : (w.steps.map Step.name).Nodup)
    (h : w.Reaches registry world before state (step :: after)) {failure : StepFailure}
    (hstop : (turn registry w.baseDirectory state step after).stop = some (.failed failure))
    (hrequests : step.requests w.baseDirectory state.results = .error (.failed failure)) :
    FailsUnasked (w.close (stoppedState w registry state step after)) state.results step
      failure := by
  refine ⟨?_, Step.loopIndex_of_requests hrequests⟩
  rw [h.callsFor_stopped hnames hstop, turnCalls, turnService, Step.perform_of_error hrequests]
  rfl

/-- A step that fails once its requests are known fails at one of them, and those before it were
answered. -/
theorem Reaches.failsAtRequest (hnames : (w.steps.map Step.name).Nodup)
    (h : w.Reaches registry world before state (step :: after)) {failure : StepFailure}
    (hstop : (turn registry w.baseDirectory state step after).stop = some (.failed failure))
    {requests : List Request}
    (hrequests : step.requests w.baseDirectory state.results = .ok requests) :
    failure.kind = .invocation ∧ ∃ done r, w.FailsAtRequest registry
      (w.close (stoppedState w registry state step after)) state step failure done r := by
  obtain ⟨-, houtcome, -⟩ :=
    turn_ends registry w.baseDirectory state step after h.stop_eq hstop
  have hperform : turnService registry w.baseDirectory state step =
      (registry.serve Request.isShowable requests state.world).map step.captured :=
    Step.perform_of_ok hrequests
  rw [hperform] at houtcome
  cases hserve : (registry.serve Request.isShowable requests state.world).outcome with
  | ok texts => simp [Service.map, hserve, Except.map] at houtcome
  | error stop =>
    simp only [Service.map, hserve, Except.map, Except.error.injEq] at houtcome
    subst houtcome
    obtain ⟨done, r, rest, texts, now, rfl, hdone, -, hends⟩ := Registry.serve_stops hserve
    rcases hends with ⟨-, hmade, reason, hanswer, hreason⟩ | ⟨-, -, hbroken⟩
    · obtain rfl : failure = ⟨r.context.stepName, .invocation, r.context.loopIndex, .call reason⟩ :=
        Stop.failed.inj hreason
      refine ⟨rfl, done, r, ⟨rest, hrequests⟩, ⟨texts, now, reason, hdone, hanswer, rfl⟩,
        Step.loopIndex_of_requests_split hrequests, ?_⟩
      have hmade : (turnService registry w.baseDirectory state step).made = done ++ [r] := by
        rw [hperform]
        exact hmade
      rw [h.callsFor_stopped hnames hstop, turnCalls, hmade]
      -- Requests that were answered are all for registered operations.
      have hall : done.filter (fun r => registry.has r.operation) = done :=
        List.filter_eq_self.mpr fun q hq => hdone.has hq
      simp [Setting.callsOf, turnSetting, hall, Function.comp_def]
    · cases hbroken

/-- The step with which a run of a valid workflow fails. If its parameters or items could not be
made out, no call was made for it, and its failure is at no item or at the first one. If a call
failed at an item, just the items before it had calls, and all of these yielded texts. The texts of
items have no part in whether a placeholder can be followed. -/
theorem run_failure (hvalid : w.validate = .ok ()) (registry : Registry σ) (world : σ) :
    (∃ run, w.run registry world = .ok run ∧
      ∀ failure, run.stop = some (.failed failure) →
        ∃ before state step after, w.Reaches registry world before state (step :: after) ∧
          failure.step = step.name ∧
          (failure.kind = .resolution → FailsUnasked run state.results step failure) ∧
          (failure.kind = .invocation →
            ∃ done r, w.FailsAtRequest registry run state step failure done r)) ∧
      ∀ (loop : Loop) (parameters : Parameters) (results : Results) (item item' : String),
        fault? (loop.applyItem parameters item results) =
          fault? (loop.applyItem parameters item' results) := by
  have hnames := nodup_names hvalid
  refine ⟨⟨w.runValid registry world, run_of_validate hvalid registry world, ?_⟩,
    fun loop parameters results item item' =>
      loop.fault_applyItem parameters item item' results⟩
  intro failure hfailure
  rcases runValid_ends w registry world with
    ⟨state, hreached, hrun⟩ | ⟨before, state, step, after, stop, hreached, hstop, hrun⟩
  · rw [hrun] at hfailure
    cases hreached.stop_eq.symm.trans hfailure
  · rw [hrun] at hfailure ⊢
    obtain rfl : stop = .failed failure := Option.some.inj (hstop.symm.trans hfailure)
    have hstep := (hreached.settled.failedAt hnames hreached hstop).failedStep
    refine ⟨before, state, step, after, hreached, hstep, ?_⟩
    cases hrequests : step.requests w.baseDirectory state.results with
    | error found =>
      obtain ⟨-, houtcome, -⟩ :=
        turn_ends registry w.baseDirectory state step after hreached.stop_eq hstop
      rw [turnService, Step.perform_of_error hrequests] at houtcome
      obtain rfl : found = .failed failure := Except.error.inj houtcome
      refine ⟨fun _ => hreached.failsUnasked hnames hstop hrequests, fun hkind => ?_⟩
      cases hkind.symm.trans (Step.requests_failed hrequests).2
    | ok requests =>
      obtain ⟨hkind, hfails⟩ := hreached.failsAtRequest hnames hstop hrequests
      refine ⟨fun hresolution => ?_, fun _ => hfails⟩
      cases hresolution.symm.trans hkind

/-- A workflow whose loop has three items, of which the operation fails at the third. -/
def thriceWorkflow : Workflow :=
  { steps := [
      { name := "first", type := "#count", enabled := true },
      { name := "each", type := "#count", enabled := true, loop := some ⟨"x\ny\nz", "item"⟩ }] }

/-- An operation that fails at its fourth call. -/
def thriceRegistry : Registry Nat :=
  { operations := [
      ("count", fun _ _ calls =>
        (if calls = 3 then .error (.raised "ValueError" "no more") else .ok (.text "said"),
          calls + 1))] }

/-- The loop fails at its third item, and two items before it were answered. -/
theorem run_failure_thrice :
    thriceWorkflow.validate = .ok () ∧
      ∃ run, thriceWorkflow.run thriceRegistry 0 = .ok run ∧ run.calls.length = 4 ∧
        ∃ state step failure done r,
          run.stop = some (.failed failure) ∧ failure.loopIndex = some 2 ∧
          thriceWorkflow.FailsAtRequest thriceRegistry run state step failure done r := by
  have hvalid : thriceWorkflow.validate = .ok () := rfl
  obtain ⟨⟨run, hrun, hfailure⟩, -⟩ := run_failure hvalid thriceRegistry 0
  obtain rfl : run = thriceWorkflow.runValid thriceRegistry 0 := by
    rw [run_of_validate hvalid] at hrun
    exact (Except.ok.inj hrun).symm
  have hstop : (thriceWorkflow.runValid thriceRegistry 0).stop = some (.failed
      ⟨"each", .invocation, some 2, .call (.raised "ValueError" "no more")⟩) := by
    decide +kernel
  obtain ⟨before, state, step, after, -, -, -, hcall⟩ := hfailure _ hstop
  obtain ⟨done, r, hfails⟩ := hcall rfl
  exact ⟨hvalid, _, hrun, by decide +kernel, state, step, _, done, r, hstop, rfl, hfails⟩

end Workflow

end Runbook
