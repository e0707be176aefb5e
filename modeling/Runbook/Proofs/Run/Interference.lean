import Runbook.Document.Loader
import Runbook.Proofs.Reference.Determination
import Runbook.Proofs.Run.Standing
import Runbook.Proofs.Run.Story

/-!
# What one step can tell the others

The texts that a step captures are seen by all steps after it, and yet they reach only those with a
placeholder that names the step. Two registries that answer one step differently give runs that
differ in the results of that step alone, provided that no later step refers to it.

The module introduces:

* `Registry.AlikeBut`: two registries that differ in the texts that they return to one step;
* `Results.AlikeBut`, `Story.AlikeBut`: results, and stories, that differ in what is under one name;
* `Service.Parallel`: two services that took the same course, whatever they came to.

The main result is `Workflow.run_alikeBut`. The step itself takes the same course under both
registries (`Step.perform_parallel`), the steps before and after it do the same
(`Step.perform_congr`).
-/

namespace Runbook

variable {σ : Type}

/-- Two collections of results that differ at most in what is under a name. -/
structure Results.AlikeBut (name : String) (results results' : Results) : Prop where
  /-- The same steps have results, in the same order. -/
  names : results'.map Prod.fst = results.map Prod.fst
  /-- The results of the other steps are the same. -/
  lookup : ∀ other, other ≠ name → results'.lookup other = results.lookup other

/-- Two registries that differ at most in the texts that they return to the step of a name. -/
structure Registry.AlikeBut (name : String) (registry registry' : Registry σ) : Prop where
  /-- They have the same operations. -/
  has : ∀ operation, registry'.has operation = registry.has operation
  /-- Calls for other steps are answered in the same way. -/
  others : ∀ operation parameters context world, context.stepName ≠ name →
    registry'.invoke operation parameters context world =
      registry.invoke operation parameters context world
  /-- So are calls for the step itself, unless both return a text; then they may return different
  ones, but they leave the world in the same state. -/
  own : ∀ operation parameters context world, context.stepName = name →
    registry'.invoke operation parameters context world =
        registry.invoke operation parameters context world ∨
      ∃ value value' text text' next,
        registry.invoke operation parameters context world = (.ok value, next) ∧
        registry'.invoke operation parameters context world = (.ok value', next) ∧
        Capture.toText value name = .ok text ∧ Capture.toText value' name = .ok text'

/-! ## The steps that are answered in the same way -/

namespace Registry

variable {registry registry' : Registry σ} {admitted : Request → Bool} {name : String}

theorem AlikeBut.answer_eq (h : AlikeBut name registry registry') {r : Request}
    (hr : r.context.stepName ≠ name) (world : σ) :
    registry'.answer r world = registry.answer r world := by
  simp only [answer, h.others _ _ _ _ hr]

theorem serve_congr {requests : List Request}
    (h : ∀ r ∈ requests, ∀ world, registry'.answer r world = registry.answer r world)
    (world : σ) : registry'.serve admitted requests world =
      registry.serve admitted requests world := by
  induction requests generalizing world with
  | nil => rfl
  | cons r rs ih =>
    obtain ⟨hfirst, hrest⟩ := List.forall_mem_cons.mp h
    simp only [serve, serveOne, hfirst, ih hrest]

end Registry

namespace Step

variable {s : Step} {directory : Option Path} {results results' : Results}

/-- A step asks for what its placeholders stand for, and for nothing else of the results. -/
theorem requests_congr (h : ∀ r ∈ Document.references s, r.Agrees results results') :
    s.requests directory results = s.requests directory results' := by
  have hparameters : Substitution.inEntries results s.parameters =
      Substitution.inEntries results' s.parameters :=
    Substitution.inEntries_congr _ fun r hr => h r (List.mem_append_left _ hr)
  cases hloop : s.loop with
  | none => rw [requests_of_single hloop, requests_of_single hloop, hparameters]
  | some loop =>
    have hinput : Substitution.inText results loop.inputData =
        Substitution.inText results' loop.inputData := by
      refine Substitution.inText_congr fun r hr => h r (List.mem_append_right _ ?_)
      rw [hloop]
      exact hr
    have hdiscover : loop.discover results = loop.discover results' := by
      simp only [Loop.discover, hinput]
    simp only [requests, hloop, Loop.expand, Loop.applyItem, stopExpansion, hdiscover, hparameters]

/-- A step asks for the same if all that its placeholders name has captured the same. -/
theorem requests_of_free {name : String}
    (hresults : ∀ other, other ≠ name → results'.lookup other = results.lookup other)
    (hfree : ∀ r ∈ Document.references s, r.step ≠ name) :
    s.requests directory results' = s.requests directory results :=
  requests_congr fun r hr => Pointer.resolve_congr (hresults r.step (hfree r hr)) r.output

/-- A step that is not the one answered differently does the same if it asks for the same. -/
theorem perform_congr {name : String} {registry registry' : Registry σ}
    {admitted : Request → Bool} (h : Registry.AlikeBut name registry registry')
    (hname : s.name ≠ name)
    (hrequests : s.requests directory results' = s.requests directory results) (world : σ) :
    s.perform registry' admitted directory results' world =
      s.perform registry admitted directory results world := by
  cases hmade : s.requests directory results with
  | error stop => rw [perform_of_error hmade, perform_of_error (hrequests.trans hmade)]
  | ok requests =>
    have hanswer : ∀ r ∈ requests, ∀ world, registry'.answer r world = registry.answer r world := by
      intro r hr world
      refine h.answer_eq ?_ world
      rw [(of_mem_requests hmade hr).2]
      exact hname
    rw [perform_of_ok hmade, perform_of_ok (hrequests.trans hmade), Registry.serve_congr hanswer]

end Step

/-! ## The step that is answered differently -/

/-- Two services that took the same course: the same requests were made, the worlds are the same,
and either both stopped for the same reason or both came to results, which may differ. -/
structure Service.Parallel {α β : Type} (x : Service σ α) (y : Service σ β) : Prop where
  made : y.made = x.made
  world : y.world = x.world
  outcome : y.outcome.map (fun _ => ()) = x.outcome.map (fun _ => ())

namespace Service

variable {α β γ δ : Type} {x : Service σ α} {y : Service σ β}

theorem Parallel.outcomes (h : x.Parallel y) :
    (∃ stop, x.outcome = .error stop ∧ y.outcome = .error stop) ∨
      ∃ a b, x.outcome = .ok a ∧ y.outcome = .ok b := by
  have houtcome := h.outcome
  cases hx : x.outcome <;> cases hy : y.outcome <;> rw [hx, hy] at houtcome <;> cases houtcome
  · exact .inl ⟨_, rfl, rfl⟩
  · exact .inr ⟨_, _, rfl, rfl⟩

theorem Parallel.map (h : x.Parallel y) (f : α → γ) (g : β → δ) :
    (x.map f).Parallel (y.map g) := by
  refine ⟨h.made, h.world, ?_⟩
  rcases h.outcomes with ⟨stop, hx, hy⟩ | ⟨a, b, hx, hy⟩ <;>
    simp only [Service.map, hx, hy, Except.map]

theorem Parallel.bind (h : x.Parallel y) {f : α → σ → Service σ γ} {g : β → σ → Service σ δ}
    (hnext : ∀ a b world, (f a world).Parallel (g b world)) : (x.bind f).Parallel (y.bind g) := by
  rcases h.outcomes with ⟨stop, hx, hy⟩ | ⟨a, b, hx, hy⟩
  · rw [bind_of_error hx, bind_of_error hy]
    exact ⟨h.made, h.world, rfl⟩
  · -- The second parts begin in the same world.
    have hrest := hnext a b x.world
    rw [bind_of_ok hx, bind_of_ok hy, h.world]
    exact ⟨by rw [h.made, hrest.made], hrest.world, hrest.outcome⟩

end Service

namespace Registry

variable {registry registry' : Registry σ} {admitted : Request → Bool} {name : String}

/-- A request of the step takes the same course, whatever text it yields. -/
theorem serveOne_parallel (h : AlikeBut name registry registry') {r : Request}
    (hr : r.context.stepName = name) (world : σ) :
    (registry.serveOne admitted r world).Parallel (registry'.serveOne admitted r world) := by
  unfold serveOne
  split
  case isFalse => exact ⟨rfl, rfl, rfl⟩
  case isTrue =>
    rcases h.own r.operation r.parameters r.context world hr with
      hsame | ⟨value, value', text, text', next, hinvoke, hinvoke', htext, htext'⟩
    · have hanswer : registry'.answer r world = registry.answer r world := by
        simp only [answer, hsame]
      rw [hanswer]
      exact ⟨rfl, rfl, rfl⟩
    · have hanswer : registry.answer r world = (.ok text, next) := by
        simp only [answer, hinvoke, hr, htext, mapError_ok]
      have hanswer' : registry'.answer r world = (.ok text', next) := by
        simp only [answer, hinvoke', hr, htext', mapError_ok]
      rw [hanswer, hanswer']
      exact ⟨rfl, rfl, rfl⟩

theorem serve_parallel (h : AlikeBut name registry registry') {requests : List Request}
    (hrequests : ∀ r ∈ requests, r.context.stepName = name) (world : σ) :
    (registry.serve admitted requests world).Parallel
      (registry'.serve admitted requests world) := by
  induction requests generalizing world with
  | nil => exact ⟨rfl, rfl, rfl⟩
  | cons r rs ih =>
    obtain ⟨hr, hrs⟩ := List.forall_mem_cons.mp hrequests
    exact (serveOne_parallel h hr world).bind fun text text' world => (ih hrs world).map _ _

end Registry

/-- The step takes the same course under both registries. -/
theorem Step.perform_parallel {s : Step} {registry registry' : Registry σ}
    {admitted : Request → Bool} (h : Registry.AlikeBut s.name registry registry')
    (directory : Option Path) (results : Results) (world : σ) :
    (s.perform registry admitted directory results world).Parallel
      (s.perform registry' admitted directory results world) := by
  cases hrequests : s.requests directory results with
  | error stop =>
    rw [perform_of_error hrequests, perform_of_error hrequests]
    exact ⟨rfl, rfl, rfl⟩
  | ok requests =>
    rw [perform_of_ok hrequests, perform_of_ok hrequests]
    have hown : ∀ r ∈ requests, r.context.stepName = s.name :=
      fun r hr => (of_mem_requests hrequests hr).2
    exact (Registry.serve_parallel h hown world).map _ _

/-! ## The whole run -/

/-- Two stories that differ at most in what the step of a name captured. -/
structure Story.AlikeBut (name : String) (story story' : Story σ) : Prop where
  /-- The same requests were made. -/
  made : story'.made = story.made
  /-- What the other steps captured is the same. -/
  results : Results.AlikeBut name story.results story'.results
  /-- Both came to their ends, or they stopped for the same reason. -/
  stop : story'.stop = story.stop
  /-- The worlds are the same. -/
  world : story'.world = story.world

namespace Story

variable {name : String}

theorem AlikeBut.refl (story : Story σ) : AlikeBut name story story :=
  ⟨rfl, ⟨rfl, fun _ _ => rfl⟩, rfl, rfl⟩

/-- A step that did the same in both stories comes before stories that differ at most in what is
under a name. -/
theorem AlikeBut.followedBy {next next' : Execution → σ → Story σ} (service : Service σ Execution)
    (first : String) (h : ∀ execution world, AlikeBut name (next execution world)
      (next' execution world)) :
    AlikeBut name (service.followedBy first next) (service.followedBy first next') := by
  cases houtcome : service.outcome with
  | error stop =>
    rw [Service.followedBy_of_error houtcome, Service.followedBy_of_error houtcome]
    exact refl _
  | ok execution =>
    have hrest := h execution service.world
    rw [Service.followedBy_of_ok houtcome, Service.followedBy_of_ok houtcome]
    refine ⟨by rw [hrest.made], ⟨?_, ?_⟩, hrest.stop, hrest.world⟩
    · exact congrArg (first :: ·) hrest.results.names
    · intro other hother
      change ((first, execution.outputs) :: Story.results _).lookup other =
        ((first, execution.outputs) :: Story.results _).lookup other
      rw [List.lookup_cons, List.lookup_cons, hrest.results.lookup other hother]

/-- The step that is answered differently comes before stories that are the same whatever it
captured. -/
theorem alikeBut_of_parallel {service service' : Service σ Execution}
    (h : service.Parallel service') {next next' : Execution → σ → Story σ}
    (hnext : ∀ execution execution' world, next' execution' world = next execution world) :
    AlikeBut name (service.followedBy name next) (service'.followedBy name next') := by
  rcases h.outcomes with ⟨stop, hservice, hservice'⟩ | ⟨execution, execution', hservice, hservice'⟩
  · rw [Service.followedBy_of_error hservice, Service.followedBy_of_error hservice']
    exact ⟨h.made, ⟨rfl, fun _ _ => rfl⟩, rfl, h.world⟩
  · rw [Service.followedBy_of_ok hservice, Service.followedBy_of_ok hservice', h.world,
      hnext execution execution']
    refine ⟨by rw [h.made], ⟨rfl, ?_⟩, rfl, rfl⟩
    intro other hother
    -- The two entries are under the name that does not count.
    simp only [results, List.map_cons, List.lookup_cons, beq_false_of_ne hother]

end Story

namespace Workflow

variable {name : String} {registry registry' : Registry σ} {admitted : Request → Bool}
  {directory : Option Path} {results results' : Results} {steps : List Step}

/-- Steps that do not refer to the one answered differently tell the same story, whatever it
captured. -/
theorem tell_congr (h : Registry.AlikeBut name registry registry')
    (hresults : ∀ other, other ≠ name → results'.lookup other = results.lookup other)
    (hnames : ∀ step ∈ steps, step.name ≠ name)
    (hfree : ∀ step ∈ steps, step.enabled = true →
      ∀ r ∈ Document.references step, r.step ≠ name) (world : σ) :
    tell registry' admitted directory results' world steps =
      tell registry admitted directory results world steps := by
  induction steps generalizing results results' world with
  | nil => rfl
  | cons step steps ih =>
    obtain ⟨hname, hnames⟩ := List.forall_mem_cons.mp hnames
    obtain ⟨hfirst, hfree⟩ := List.forall_mem_cons.mp hfree
    cases henabled : step.enabled with
    | false =>
      rw [tell_of_disabled _ _ _ _ _ _ henabled, tell_of_disabled _ _ _ _ _ _ henabled]
      exact ih hresults hnames hfree world
    | true =>
      rw [tell_of_enabled _ _ _ _ _ _ henabled, tell_of_enabled _ _ _ _ _ _ henabled,
        Step.perform_congr h hname (Step.requests_of_free hresults (hfirst henabled))]
      -- What the step captured is added to both collections of results.
      have hrest : ∀ (execution : Execution) (world : σ),
          tell registry' admitted directory (results' ++ [(step.name, execution.outputs)]) world
              steps =
            tell registry admitted directory (results ++ [(step.name, execution.outputs)]) world
              steps := by
        intro execution world
        refine ih (fun other hother => ?_) hnames hfree world
        rw [List.lookup_append, List.lookup_append, hresults other hother]
      simp only [hrest]

/-- A step that is answered differently changes nothing of the story but what it captured itself. -/
theorem tell_alikeBut {before after : List Step} {step : Step}
    (hnames : ((before ++ step :: after).map Step.name).Nodup)
    (h : Registry.AlikeBut step.name registry registry')
    (hfree : ∀ later ∈ after, later.enabled = true →
      ∀ r ∈ Document.references later, r.step ≠ step.name) (results : Results) (world : σ) :
    Story.AlikeBut step.name
      (tell registry admitted directory results world (before ++ step :: after))
      (tell registry' admitted directory results world (before ++ step :: after)) := by
  induction before generalizing results world with
  | nil =>
    have hlater : ∀ later ∈ after, later.name ≠ step.name := by
      intro later hlater heq
      exact (List.nodup_cons.mp hnames).1 (heq ▸ List.mem_map_of_mem hlater)
    rw [List.nil_append]
    cases henabled : step.enabled with
    | false =>
      rw [tell_of_disabled _ _ _ _ _ _ henabled, tell_of_disabled _ _ _ _ _ _ henabled,
        tell_congr h (fun _ _ => rfl) hlater hfree]
      exact .refl _
    | true =>
      rw [tell_of_enabled _ _ _ _ _ _ henabled, tell_of_enabled _ _ _ _ _ _ henabled]
      refine Story.alikeBut_of_parallel (Step.perform_parallel h directory results world) ?_
      intro execution execution' world
      refine tell_congr h (fun other hother => ?_) hlater hfree world
      rw [List.lookup_append, List.lookup_append]
      simp only [List.lookup_cons, beq_false_of_ne hother]
  | cons first before ih =>
    obtain ⟨hfirst, hrest⟩ := List.nodup_cons.mp hnames
    rw [List.cons_append]
    cases henabled : first.enabled with
    | false =>
      rw [tell_of_disabled _ _ _ _ _ _ henabled, tell_of_disabled _ _ _ _ _ _ henabled]
      exact ih hrest results world
    | true =>
      -- The first step has another name, and it sees the same results in both stories.
      have hname : first.name ≠ step.name := by
        intro heq
        exact hfirst (heq ▸ List.mem_map_of_mem (List.mem_append_right _ List.mem_cons_self))
      rw [tell_of_enabled _ _ _ _ _ _ henabled, tell_of_enabled _ _ _ _ _ _ henabled,
        Step.perform_congr h hname rfl]
      exact Story.AlikeBut.followedBy _ _ fun execution world => ih hrest _ world

/-- What a step captures reaches other steps through placeholders only. Let two registries differ at
most in the texts that they return to one step of a valid workflow, and let no enabled step after it
have a placeholder that names it, neither in its parameters nor in the input of its loop. Then the
runs under both registries make the same calls, end in the same way and in the same world, and all
steps but that one have the same results. -/
theorem run_alikeBut {w : Workflow} (hvalid : w.validate = .ok ()) {before after : List Step}
    {step : Step} (hsteps : w.steps = before ++ step :: after)
    (hfree : ∀ later ∈ after, later.enabled = true →
      ∀ r ∈ Document.references later, r.step ≠ step.name)
    {registry registry' : Registry σ} (h : Registry.AlikeBut step.name registry registry')
    (world : σ) :
    ∃ run run', w.run registry world = .ok run ∧ w.run registry' world = .ok run' ∧
      run'.calls.map Call.request = run.calls.map Call.request ∧
      run'.stop = run.stop ∧ run'.world = run.world ∧
      Results.AlikeBut step.name run.results run'.results := by
  have hrun := runValid_continues w registry world
  have hrun' := runValid_continues w registry' world
  have hstory : Story.AlikeBut step.name (w.shownStory registry world)
      (w.shownStory registry' world) := by
    have hnames := nodup_names hvalid
    unfold shownStory
    rw [hsteps] at hnames ⊢
    exact tell_alikeBut hnames h hfree [] world
  refine ⟨_, _, run_of_validate hvalid registry world, run_of_validate hvalid registry' world,
    ?_, ?_, ?_, ?_⟩
  · refine hrun'.calls.trans (Eq.trans ?_ hrun.calls.symm)
    simp only [Story.calls, hstory.made, h.has]
  · exact hrun'.stop.trans (hstory.stop.trans hrun.stop.symm)
  · exact hrun'.world.trans (hstory.world.trans hrun.world.symm)
  · have hresults : (w.runValid registry world).results = (w.shownStory registry world).results :=
      hrun.results
    have hresults' : (w.runValid registry' world).results =
        (w.shownStory registry' world).results := hrun'.results
    rw [hresults, hresults']
    exact hstory.results

/-- A workflow whose last step is told what the second one said. -/
def relayWorkflow : Workflow :=
  { steps := [
      { name := "first", type := "#echo", enabled := true },
      { name := "second", type := "#echo", enabled := true },
      { name := "last", type := "#echo", enabled := true,
        parameters := [(.text "heard", .text "{second.Result}")] }] }

/-- The halting operations, of which the one that counts says something else to the first step. -/
def otherRegistry : Registry Nat :=
  { operations := [
      ("echo", fun _ context calls =>
        (.ok (.text (if context.stepName = "first" then "other" else "said")), calls + 1)),
      ("halt", fun _ _ calls => (.error (.raised "ValueError" "no more"), calls))] }

theorem otherRegistry_alikeBut : Registry.AlikeBut "first" haltingRegistry otherRegistry := by
  have hsame {operation : String} (hoperation : operation ≠ "echo") :
      otherRegistry.invoke operation = haltingRegistry.invoke operation := by
    have hget : otherRegistry.get? operation = haltingRegistry.get? operation := by
      simp only [Registry.get?, otherRegistry, haltingRegistry, List.lookup_cons,
        beq_false_of_ne hoperation]
    funext parameters context calls
    simp only [Registry.invoke, hget]
    rfl
  refine ⟨fun _ => rfl, ?_, ?_⟩
  · intro operation parameters context calls hother
    by_cases hoperation : operation = "echo"
    · subst hoperation
      simp [Registry.invoke, Registry.get?, haltingRegistry, otherRegistry, hother]
    · rw [hsame hoperation]
  · intro operation parameters context calls hown
    by_cases hoperation : operation = "echo"
    · subst hoperation
      refine .inr ⟨.text "said", .text "other", "said", "other", calls + 1, rfl, ?_, rfl, rfl⟩
      simp [Registry.invoke, Registry.get?, otherRegistry, hown]
    · exact .inl (by rw [hsame hoperation])

/-- The last step hears the same although the first one says something else. -/
theorem run_alikeBut_relay :
    relayWorkflow.validate = .ok () ∧
      (∀ later ∈ relayWorkflow.steps.drop 1, later.enabled = true →
        ∀ r ∈ Document.references later, r.step ≠ "first") ∧
      Registry.AlikeBut "first" haltingRegistry otherRegistry ∧
      ∃ run run', relayWorkflow.run haltingRegistry 0 = .ok run ∧
        relayWorkflow.run otherRegistry 0 = .ok run' ∧
        run'.calls.map Call.request = run.calls.map Call.request ∧
        run'.results.lookup "last" = run.results.lookup "last" ∧
        run'.results.lookup "first" ≠ run.results.lookup "first" := by
  have hvalid : relayWorkflow.validate = .ok () := rfl
  have hfree : ∀ later ∈ relayWorkflow.steps.drop 1, later.enabled = true →
      ∀ r ∈ Document.references later, r.step ≠ "first" := by
    decide +kernel
  obtain ⟨run, run', hrun, hrun', hcalls, -, -, hresults⟩ :=
    run_alikeBut hvalid (List.nil_append relayWorkflow.steps).symm hfree otherRegistry_alikeBut 0
  obtain rfl : _ = run := Except.ok.inj hrun
  obtain rfl : _ = run' := Except.ok.inj hrun'
  exact ⟨hvalid, hfree, otherRegistry_alikeBut, _, _, hrun, hrun', hcalls,
    hresults.lookup "last" (by decide), by decide +kernel⟩

end Workflow

end Runbook
