import Runbook.Proofs.Run.Turn

/-!
# The calls of a run

A run told without records and statuses: the enabled steps of a workflow are performed in order, up
to the first that stops. The requests of each step are fixed by what the steps before it captured;
a step with a loop makes those that expanding the loop gives.

The module introduces:

* `Workflow.tell`: that story, in which the requests that are made can be restricted;
* `Service.Cut`, `Story.Cut`: what is left of a service or a story that is restricted.

The main result is `Workflow.run_calls`: a run makes the calls of the story, but only up to the
first request whose parameters hold an integer that the log cannot show.
-/

namespace Runbook

variable {σ : Type}

/-! ## Restricting requests -/

/-- What is left of a service if only `admitted` requests are made: it ends before the first other
one. -/
structure Service.Cut {α : Type} (admitted : Request → Bool) (full cut : Service σ α) : Prop where
  /-- The requests are those up to the first that is not admitted. -/
  made : cut.made = full.made.takeWhile admitted
  /-- Nothing changes if all are admitted. -/
  whole : full.made.all admitted = true → cut = full
  /-- Otherwise the service ends for the one that is not. -/
  broken : full.made.all admitted = false → cut.outcome = .error (.broken .tooLongToWrite)

section TakeWhile

variable {α : Type} {p : α → Bool} {first second : List α}

/-- Elements after one that does not satisfy the predicate do not count. -/
private theorem takeWhile_append_of_not_all (h : first.all p = false) :
    (first ++ second).takeWhile p = first.takeWhile p := by
  induction first with
  | nil => cases h
  | cons a first ih =>
    rw [List.cons_append, List.takeWhile_cons, List.takeWhile_cons]
    cases ha : p a with
    | true =>
      rw [List.all_cons, ha, Bool.true_and] at h
      simp only [if_true, ih h]
    | false => rfl

private theorem takeWhile_of_all (h : first.all p = true) : first.takeWhile p = first := by
  rw [← List.append_nil first, List.takeWhile_append_of_pos (List.all_eq_true.mp h),
    List.takeWhile_nil]

end TakeWhile

namespace Service

variable {α β : Type} {admitted : Request → Bool}

/-- A service that makes no requests is left as it is. -/
theorem cut_idle (outcome : Except Stop α) (world : σ) :
    Cut admitted ⟨[], outcome, world⟩ ⟨[], outcome, world⟩ :=
  ⟨rfl, fun _ => rfl, fun h => by cases h⟩

theorem Cut.map {full cut : Service σ α} (h : Cut admitted full cut) (f : α → β) :
    Cut admitted (full.map f) (cut.map f) := by
  refine ⟨h.made, ?_, ?_⟩
  · intro hall
    rw [h.whole hall]
  · intro hnot
    simp only [Service.map, h.broken hnot, Except.map]

theorem Cut.bind {full cut : Service σ α} (h : Cut admitted full cut)
    {f g : α → σ → Service σ β} (hnext : ∀ a world, Cut admitted (f a world) (g a world)) :
    Cut admitted (full.bind f) (cut.bind g) := by
  cases hall : full.made.all admitted with
  | true =>
    -- The first part is whole, so that the second one starts from the same world.
    rw [h.whole hall]
    cases houtcome : full.outcome with
    | error stop =>
      rw [bind_of_error houtcome, bind_of_error houtcome]
      refine ⟨(takeWhile_of_all hall).symm, fun _ => rfl, ?_⟩
      intro hnot
      cases hall.symm.trans hnot
    | ok a =>
      have hnext := hnext a full.world
      rw [bind_of_ok houtcome, bind_of_ok houtcome]
      refine ⟨?_, ?_, ?_⟩
      · rw [List.takeWhile_append_of_pos (List.all_eq_true.mp hall), hnext.made]
      · intro hrest
        rw [List.all_append, hall, Bool.true_and] at hrest
        rw [hnext.whole hrest]
      · intro hnot
        rw [List.all_append, hall, Bool.true_and] at hnot
        exact hnext.broken hnot
  | false =>
    -- The first part breaks off, and nothing of the second one is made.
    rw [bind_of_error (h.broken hall)]
    cases houtcome : full.outcome with
    | error stop =>
      rw [bind_of_error houtcome]
      refine ⟨h.made, ?_, fun _ => rfl⟩
      intro htrue
      cases hall.symm.trans htrue
    | ok a =>
      rw [bind_of_ok houtcome]
      refine ⟨?_, ?_, fun _ => rfl⟩
      · rw [takeWhile_append_of_not_all hall, h.made]
      · intro htrue
        rw [List.all_append, hall] at htrue
        cases htrue

end Service

namespace Registry

variable (registry : Registry σ) (admitted : Request → Bool)

theorem serveOne_cut (r : Request) (world : σ) :
    Service.Cut admitted (registry.serveOne (fun _ => true) r world)
      (registry.serveOne admitted r world) := by
  cases h : admitted r with
  | true =>
    have hsame : registry.serveOne admitted r world =
        registry.serveOne (fun _ => true) r world := by
      simp only [serveOne, h]
    rw [hsame]
    refine ⟨?_, fun _ => rfl, ?_⟩
    · simp [made_of_serveOne, h]
    · simp [made_of_serveOne, h]
  | false =>
    refine ⟨?_, ?_, ?_⟩
    · simp [made_of_serveOne, h]
    · simp [made_of_serveOne, h]
    · simp [serveOne, h]

theorem serve_cut (requests : List Request) (world : σ) :
    Service.Cut admitted (registry.serve (fun _ => true) requests world)
      (registry.serve admitted requests world) := by
  induction requests generalizing world with
  | nil => exact Service.cut_idle _ _
  | cons r rs ih =>
    exact (registry.serveOne_cut admitted r world).bind fun text world => (ih world).map _

end Registry

theorem Step.perform_cut (s : Step) (registry : Registry σ) (admitted : Request → Bool)
    (directory : Option Path) (results : Results) (world : σ) :
    Service.Cut admitted (s.perform registry (fun _ => true) directory results world)
      (s.perform registry admitted directory results world) := by
  cases h : s.requests directory results with
  | error stop =>
    rw [perform_of_error h, perform_of_error h]
    exact Service.cut_idle _ _
  | ok requests =>
    rw [perform_of_ok h, perform_of_ok h]
    exact (registry.serve_cut admitted requests world).map _

/-! ## Telling a run -/

/-- What comes of steps. -/
structure Story (σ : Type) where
  /-- The requests that were made, in order. -/
  made : List Request
  /-- What steps captured, by step name, in order. -/
  captured : List (String × Execution)
  /-- Why the story ends before the last step, if it does. -/
  stop : Option Stop
  /-- The state of the world after the requests. -/
  world : σ

/-- What steps captured as results. -/
def Story.results (story : Story σ) : Results :=
  story.captured.map fun (name, execution) => (name, execution.outputs)

/-- Tells what comes of a step whose service is known and, unless it stops, of what follows. -/
def Service.followedBy (service : Service σ Execution) (name : String)
    (next : Execution → σ → Story σ) : Story σ :=
  match service.outcome with
  | .error stop => ⟨service.made, [], some stop, service.world⟩
  | .ok execution =>
    let rest := next execution service.world
    ⟨service.made ++ rest.made, (name, execution) :: rest.captured, rest.stop, rest.world⟩

/-- Tells what comes of steps: the enabled ones are performed one after the other, up to the first
that stops; each sees what those before it captured. -/
def Workflow.tell (registry : Registry σ) (admitted : Request → Bool) (directory : Option Path) :
    Results → σ → List Step → Story σ
  | _, world, [] => ⟨[], [], none, world⟩
  | results, world, step :: steps =>
    if step.enabled then
      (step.perform registry admitted directory results world).followedBy step.name
        fun execution world => tell registry admitted directory
          (results ++ [(step.name, execution.outputs)]) world steps
    else tell registry admitted directory results world steps

/-- The story of a workflow in which every request is made. -/
def Workflow.story (w : Workflow) (registry : Registry σ) (world : σ) : Story σ :=
  Workflow.tell registry (fun _ => true) w.baseDirectory [] world w.steps

/-- What is left of a story if only `admitted` requests are made. -/
structure Story.Cut (admitted : Request → Bool) (full cut : Story σ) : Prop where
  /-- The requests are those up to the first that is not admitted. -/
  made : cut.made = full.made.takeWhile admitted
  /-- Nothing changes if all are admitted. -/
  whole : full.made.all admitted = true → cut = full
  /-- Otherwise the story ends for the one that is not. -/
  broken : full.made.all admitted = false → cut.stop = some (.broken .tooLongToWrite)
  /-- What has been captured by then is what the whole story captures first. -/
  captured : cut.captured <+: full.captured

namespace Service

variable {service : Service σ Execution} {name : String} {next : Execution → σ → Story σ}

theorem followedBy_of_error {stop : Stop} (h : service.outcome = .error stop) :
    service.followedBy name next = ⟨service.made, [], some stop, service.world⟩ := by
  rw [followedBy, h]

theorem followedBy_of_ok {execution : Execution} (h : service.outcome = .ok execution) :
    service.followedBy name next =
      ⟨service.made ++ (next execution service.world).made,
        (name, execution) :: (next execution service.world).captured,
        (next execution service.world).stop, (next execution service.world).world⟩ := by
  rw [followedBy, h]

theorem Cut.followedBy {admitted : Request → Bool} {full cut : Service σ Execution}
    (h : Cut admitted full cut) (name : String) {f g : Execution → σ → Story σ}
    (hnext : ∀ execution world, Story.Cut admitted (f execution world) (g execution world)) :
    Story.Cut admitted (full.followedBy name f) (cut.followedBy name g) := by
  -- As for `Cut.bind`, with what is captured beside the requests.
  cases hall : full.made.all admitted with
  | true =>
    rw [h.whole hall]
    cases houtcome : full.outcome with
    | error stop =>
      rw [followedBy_of_error houtcome, followedBy_of_error houtcome]
      refine ⟨(takeWhile_of_all hall).symm, fun _ => rfl, ?_, List.prefix_refl _⟩
      intro hnot
      cases hall.symm.trans hnot
    | ok execution =>
      have hnext := hnext execution full.world
      rw [followedBy_of_ok houtcome, followedBy_of_ok houtcome]
      refine ⟨?_, ?_, ?_, (List.prefix_cons_inj _).mpr hnext.captured⟩
      · rw [List.takeWhile_append_of_pos (List.all_eq_true.mp hall), hnext.made]
      · intro hrest
        rw [List.all_append, hall, Bool.true_and] at hrest
        rw [hnext.whole hrest]
      · intro hnot
        rw [List.all_append, hall, Bool.true_and] at hnot
        exact hnext.broken hnot
  | false =>
    rw [followedBy_of_error (h.broken hall)]
    cases houtcome : full.outcome with
    | error stop =>
      rw [followedBy_of_error houtcome]
      refine ⟨h.made, ?_, fun _ => rfl, List.nil_prefix⟩
      intro htrue
      cases hall.symm.trans htrue
    | ok execution =>
      rw [followedBy_of_ok houtcome]
      refine ⟨?_, ?_, fun _ => rfl, List.nil_prefix⟩
      · rw [takeWhile_append_of_not_all hall, h.made]
      · intro htrue
        rw [List.all_append, hall] at htrue
        cases htrue

end Service

namespace Workflow

section Tell

variable (registry : Registry σ) (admitted : Request → Bool) (directory : Option Path)
  (results : Results) (world : σ) {step : Step} (steps : List Step)

theorem tell_of_disabled (henabled : step.enabled = false) :
    tell registry admitted directory results world (step :: steps) =
      tell registry admitted directory results world steps := by
  rw [tell, henabled]
  rfl

theorem tell_of_enabled (henabled : step.enabled = true) :
    tell registry admitted directory results world (step :: steps) =
      (step.perform registry admitted directory results world).followedBy step.name
        fun execution world => tell registry admitted directory
          (results ++ [(step.name, execution.outputs)]) world steps := by
  rw [tell, henabled]
  rfl

/-- A restricted story is the story up to the first request that is not admitted. -/
theorem tell_cut :
    Story.Cut admitted (tell registry (fun _ => true) directory results world steps)
      (tell registry admitted directory results world steps) := by
  induction steps generalizing results world with
  | nil =>
    refine ⟨rfl, fun _ => rfl, ?_, List.prefix_refl _⟩
    intro hnot
    cases hnot
  | cons step steps ih =>
    cases henabled : step.enabled with
    | false =>
      rw [tell_of_disabled _ _ _ _ _ _ henabled, tell_of_disabled _ _ _ _ _ _ henabled]
      exact ih results world
    | true =>
      rw [tell_of_enabled _ _ _ _ _ _ henabled, tell_of_enabled _ _ _ _ _ _ henabled]
      exact (step.perform_cut registry admitted directory results world).followedBy step.name
        fun execution world => ih _ world

end Tell

end Workflow

/-! ## A run and its story -/

/-- What the captured ones among records say of what their steps did. -/
def executionsIn (records : List Record) : List (String × Outputs × Option Int) :=
  (records.filter (·.status == .captured)).map fun r => (r.name, r.outputs, r.loopIterations)

theorem executionsIn_append (first second : List Record) :
    executionsIn (first ++ second) = executionsIn first ++ executionsIn second := by
  simp [executionsIn]

theorem executionsIn_of_not_captured {r : Record} (h : r.status ≠ .captured) :
    executionsIn [r] = [] := by
  simp [executionsIn, h]

theorem executionsIn_initial (steps : List Step) :
    executionsIn (steps.map Record.initial) = [] := by
  simp [executionsIn, Record.initial]

/-- What the records of the steps that a story captures say. -/
def Story.executions (story : Story σ) : List (String × Outputs × Option Int) :=
  story.captured.map fun (name, execution) =>
    (name, execution.outputs, execution.iterations.map Int.ofNat)

/-- The requests of a story that become calls: those for operations that are registered. -/
def Story.calls (story : Story σ) (registry : Registry σ) : List Request :=
  story.made.filter fun r => registry.has r.operation

/-- A run that goes on from a state does what a story tells. -/
structure RunState.Continues (registry : Registry σ) (state : RunState σ) (story : Story σ)
    (last : RunState σ) : Prop where
  /-- The further calls are those of the story. -/
  calls : last.calls.map Call.request = state.calls.map Call.request ++ story.calls registry
  /-- The further results are those of the story. -/
  results : last.results = state.results ++ story.results
  /-- The further captured records say what the story captures. -/
  executions : executionsIn last.records = executionsIn state.records ++ story.executions
  /-- The run stops for the same reason. -/
  stop : last.stop = story.stop
  /-- The world comes to the same state. -/
  world : last.world = story.world

namespace Workflow

section Turns

variable {registry : Registry σ} {directory : Option Path} {state : RunState σ} {step : Step}
  {later : List Step}

/-- The calls of a turn come of the requests of the step. -/
theorem map_request_turnCalls :
    (turnCalls registry directory state step later).map Call.request =
      (turnService registry directory state step).made.filter fun r =>
        registry.has r.operation := by
  simp [turnCalls, Setting.callsOf, turnSetting, Function.comp_def]

/-- A step that is skipped tells nothing. -/
theorem continues_of_skipped {next last : RunState σ} {story : Story σ} {record : Record}
    (hturn : state.Extends next [] [] record none) (hrecord : record.status ≠ .captured)
    (h : next.Continues registry story last) : state.Continues registry story last := by
  refine ⟨?_, ?_, ?_, h.stop, h.world⟩
  · rw [h.calls, hturn.calls, List.append_nil]
  · rw [h.results, hturn.results, List.append_nil]
  · rw [h.executions, hturn.records, executionsIn_append, executionsIn_of_not_captured hrecord,
      List.append_nil]

/-- A step that is captured tells its requests and what it captured, and then the story goes on. -/
theorem continues_of_captured {next last : RunState σ} {rest : Story σ} {calls : List Call}
    {requests : List Request} {execution : Execution}
    (hturn : state.Extends next calls [(step.name, execution.outputs)]
      ((Record.initial step).capture execution) none)
    (hcalls : calls.map Call.request = requests.filter fun r => registry.has r.operation)
    (h : next.Continues registry rest last) :
    state.Continues registry
      ⟨requests ++ rest.made, (step.name, execution) :: rest.captured, rest.stop, rest.world⟩
      last := by
  refine ⟨?_, ?_, ?_, h.stop, h.world⟩
  · rw [h.calls, hturn.calls, List.map_append, hcalls, List.append_assoc]
    simp only [Story.calls, List.filter_append]
  · rw [h.results, hturn.results, List.append_assoc]
    rfl
  · rw [h.executions, hturn.records, executionsIn_append, List.append_assoc]
    rfl

/-- A step that stops tells its requests, and the story ends. -/
theorem continues_of_stopped {next : RunState σ} {calls : List Call} {requests : List Request}
    {record : Record} {stop : Stop} (hturn : state.Extends next calls [] record (some stop))
    (hcalls : calls.map Call.request = requests.filter fun r => registry.has r.operation)
    (hrecord : record.status ≠ .captured) :
    state.Continues registry ⟨requests, [], some stop, next.world⟩
      { next with records := next.records ++ later.map Record.initial } := by
  refine ⟨?_, ?_, ?_, hturn.stop, rfl⟩
  · simp only [hturn.calls, List.map_append, hcalls, Story.calls]
  · simp only [hturn.results, Story.results, List.map_nil]
  · simp only [hturn.records, executionsIn_append, executionsIn_initial, List.append_nil,
      executionsIn_of_not_captured hrecord, Story.executions, List.map_nil]

/-- Giving steps their turns does what their story tells. -/
theorem turns_continues (hstate : state.stop = none) (steps : List Step) :
    state.Continues registry
      (tell registry Request.isShowable directory state.results state.world steps)
      (turns registry directory state steps) := by
  induction steps generalizing state with
  | nil =>
    refine ⟨?_, ?_, ?_, hstate, rfl⟩
    · simp [turns, tell, Story.calls]
    · simp [turns, tell, Story.results]
    · simp [turns, tell, Story.executions]
  | cons step later ih =>
    cases hstop : (turn registry directory state step later).stop with
    | none =>
      have ih := ih hstop
      rw [turns_of_goes_on hstop]
      -- What the story hands on to the later steps is what the turn leaves in the state.
      rcases turn_goes_on registry directory state step later hstate hstop with
        ⟨henabled, hturn, hworld⟩ | ⟨henabled, execution, houtcome, hturn, hworld⟩
      · rw [hturn.results, List.append_nil, hworld] at ih
        rw [tell_of_disabled _ _ _ _ _ _ henabled]
        exact continues_of_skipped hturn (by simp) ih
      · rw [hturn.results, hworld] at ih
        rw [tell_of_enabled _ _ _ _ _ _ henabled, Service.followedBy_of_ok houtcome]
        exact continues_of_captured hturn map_request_turnCalls ih
    | some stop =>
      obtain ⟨henabled, houtcome, record, hmoved, hturn, hworld⟩ :=
        turn_ends registry directory state step later hstate hstop
      rw [turns_of_stops hstop, tell_of_enabled _ _ _ _ _ _ henabled,
        Service.followedBy_of_error houtcome, ← hworld]
      exact continues_of_stopped hturn map_request_turnCalls (hmoved.status_stopped_ne stop)

end Turns

/-- The story that a run tells when the requests that the log cannot show are not made. -/
abbrev shownStory (w : Workflow) (registry : Registry σ) (world : σ) : Story σ :=
  tell registry Request.isShowable w.baseDirectory [] world w.steps

/-- A run does what that story tells. -/
theorem runValid_continues (w : Workflow) (registry : Registry σ) (world : σ) :
    (w.start world).Continues registry (w.shownStory registry world)
      (turns registry w.baseDirectory (w.start world) w.steps) := by
  have hstart : (w.start world).stop = none := rfl
  exact turns_continues hstart w.steps

/-- The calls of a run of a valid workflow, one after the other: those of its story, in which every
enabled step up to the first that stops makes the requests that its parameters, or the expansion of
its loop, give. If the log can show the parameters of all of them, then the run captures what the
story captures and ends as the story ends. Otherwise the run breaks off at the first request that
the log cannot show, and the calls from there on are lost. -/
theorem run_calls {w : Workflow} (hvalid : w.validate = .ok ()) (registry : Registry σ)
    (world : σ) :
    ∃ run, w.run registry world = .ok run ∧
      run.calls.map Call.request =
        ((w.story registry world).made.takeWhile Request.isShowable).filter
          (fun r => registry.has r.operation) ∧
      ((w.story registry world).made.all Request.isShowable = true →
        run.results = (w.story registry world).results ∧
        executionsIn run.summary.steps = (w.story registry world).executions ∧
        run.stop = (w.story registry world).stop ∧
        run.world = (w.story registry world).world) ∧
      ((w.story registry world).made.all Request.isShowable = false →
        run.results <+: (w.story registry world).results ∧
        run.stop = some (.broken .tooLongToWrite)) := by
  have hrun := runValid_continues w registry world
  have hcut : Story.Cut Request.isShowable (w.story registry world)
      (w.shownStory registry world) := tell_cut registry _ w.baseDirectory [] world w.steps
  refine ⟨w.runValid registry world, run_of_validate hvalid registry world, ?_, ?_, ?_⟩
  · rw [← hcut.made]
    exact hrun.calls
  · intro hall
    rw [← hcut.whole hall]
    exact ⟨hrun.results, hrun.executions, hrun.stop, hrun.world⟩
  · intro hnot
    refine ⟨?_, hrun.stop.trans (hcut.broken hnot)⟩
    have hresults : (w.runValid registry world).results =
        (w.shownStory registry world).results := hrun.results
    rw [hresults]
    exact hcut.captured.map _

/-- A workflow whose second step passes an integer of 4301 digits. -/
def longNumberWorkflow : Workflow :=
  { steps := [
      { name := "first", type := "#echo", enabled := true },
      { name := "long", type := "#echo", enabled := true,
        parameters := [(.text "n", .integer (Int.ofNat (Nat.pow 10 4300)))] }] }

/-- An operation that counts its calls. -/
def countingRegistry : Registry Nat :=
  { operations := [("echo", fun _ _ calls => (.ok (.text "said"), calls + 1))] }

/-- The call for a long integer is lost: the story has two requests, the run makes one call. -/
theorem run_calls_longNumber :
    longNumberWorkflow.validate = .ok () ∧
      (longNumberWorkflow.story countingRegistry 0).made.length = 2 ∧
      ∃ run, longNumberWorkflow.run countingRegistry 0 = .ok run ∧ run.calls.length = 1 ∧
        run.stop = some (.broken .tooLongToWrite) := by
  have hvalid : longNumberWorkflow.validate = .ok () := rfl
  obtain ⟨run, hrun, hcalls, -, hbroken⟩ := run_calls hvalid countingRegistry 0
  refine ⟨hvalid, by decide +kernel, run, hrun, ?_, (hbroken (by decide +kernel)).2⟩
  have hlength := congrArg List.length hcalls
  rw [List.length_map] at hlength
  rw [hlength]
  decide +kernel

end Workflow

end Runbook
