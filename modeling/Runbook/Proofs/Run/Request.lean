import Runbook.Run.Step

/-!
# Requests

What the steps of a run ask of their operations, told without records, statuses and the log. A step
expands its parameters first, into one request for each call that it is to make; then the requests
are made in order, up to the first that yields no text.

The module introduces:

* `Step.requests`: the requests of a step, given what other steps have captured;
* `Registry.serve`: what comes of requests that are made one after the other;
* `Step.perform`: what comes of the requests of a step.

The main result is `Step.run_describes`: running a step, which puts in one item after the other and
calls the operation in between, does just what performing the step says.
-/

namespace Runbook

theorem mapError_ok {ε ε' α : Type} (f : ε → ε') (a : α) :
    (Except.ok a : Except ε α).mapError f = .ok a :=
  rfl

theorem mapError_error {ε ε' α : Type} (f : ε → ε') (e : ε) :
    (Except.error e : Except ε α).mapError f = .error (f e) :=
  rfl

/-- What an operation is asked. -/
structure Request where
  /-- The name of the operation. -/
  operation : String
  /-- The parameters. -/
  parameters : Parameters
  /-- The context. -/
  context : Context

/-- What a call asks of the operation. -/
def Call.request (c : Call) : Request :=
  ⟨c.operation, c.parameters, c.context⟩

namespace Request

/-- The call that a request becomes. -/
def toCall (r : Request) (statuses : Option (List Status)) : Call :=
  ⟨r.operation, r.parameters, r.context, statuses⟩

@[simp]
theorem request_toCall (r : Request) (statuses : Option (List Status)) :
    (r.toCall statuses).request = r := rfl

/-- Whether the log can show the parameters: they hold no integer of too many digits. -/
def isShowable (r : Request) : Bool :=
  !(Value.map r.parameters).holdsLongInteger

/-- The reason to stop when a request yields no text. -/
def stop (r : Request) (failure : Failure) : Stop :=
  .failed ⟨r.context.stepName, .invocation, r.context.loopIndex, .call failure⟩

end Request

/-- What comes of requests. -/
structure Service (σ α : Type) where
  /-- The requests that were made, in order. -/
  made : List Request
  /-- What they led to. -/
  outcome : Except Stop α
  /-- The state of the world after them. -/
  world : σ

namespace Service

variable {σ α β : Type}

/-- Goes on after requests unless one of them yielded no text. -/
def bind (x : Service σ α) (f : α → σ → Service σ β) : Service σ β :=
  match x.outcome with
  | .error stop => ⟨x.made, .error stop, x.world⟩
  | .ok a => ⟨x.made ++ (f a x.world).made, (f a x.world).outcome, (f a x.world).world⟩

/-- Goes on with another result. -/
def map (f : α → β) (x : Service σ α) : Service σ β :=
  ⟨x.made, x.outcome.map f, x.world⟩

theorem bind_of_error {x : Service σ α} {f : α → σ → Service σ β} {stop : Stop}
    (h : x.outcome = .error stop) : x.bind f = ⟨x.made, .error stop, x.world⟩ := by
  simp [bind, h]

theorem bind_of_ok {x : Service σ α} {f : α → σ → Service σ β} {a : α} (h : x.outcome = .ok a) :
    x.bind f =
      ⟨x.made ++ (f a x.world).made, (f a x.world).outcome, (f a x.world).world⟩ := by
  simp [bind, h]

end Service

namespace Registry

variable {σ : Type}

/-- The text that a request yields. -/
def answer (registry : Registry σ) (r : Request) (world : σ) : Except Failure String × σ :=
  match registry.invoke r.operation r.parameters r.context world with
  | (.error failure, world) => (.error failure, world)
  | (.ok value, world) => ((Capture.toText value r.context.stepName).mapError .unusable, world)

/-- What comes of one request. A request that is not `admitted` is never made. -/
def serveOne (registry : Registry σ) (admitted : Request → Bool) (r : Request) (world : σ) :
    Service σ String :=
  if admitted r then
    let (text, world) := registry.answer r world
    ⟨[r], text.mapError r.stop, world⟩
  else ⟨[], .error (.broken .tooLongToWrite), world⟩

/-- What comes of requests that are made one after the other: their texts, unless one yields none
or is not `admitted`, which ends it. -/
def serve (registry : Registry σ) (admitted : Request → Bool) :
    List Request → σ → Service σ (List String)
  | [], world => ⟨[], .ok [], world⟩
  | r :: rs, world =>
    (registry.serveOne admitted r world).bind fun text world =>
      (registry.serve admitted rs world).map (text :: ·)

theorem serve_singleton (registry : Registry σ) (admitted : Request → Bool) (r : Request)
    (world : σ) :
    registry.serve admitted [r] world = (registry.serveOne admitted r world).map ([·]) := by
  simp only [serve, Service.bind, Service.map]
  cases (registry.serveOne admitted r world).outcome <;> simp [Except.map]

/-- As many texts come back as there are requests. -/
theorem length_of_serve {registry : Registry σ} {admitted : Request → Bool}
    {requests : List Request} {world : σ} {texts : List String}
    (h : (registry.serve admitted requests world).outcome = .ok texts) :
    texts.length = requests.length := by
  induction requests generalizing world texts with
  | nil =>
    cases h
    rfl
  | cons r rs ih =>
    rw [serve] at h
    cases hfirst : (registry.serveOne admitted r world).outcome with
    | error stop => simp [Service.bind_of_error hfirst] at h
    | ok text =>
      rw [Service.bind_of_ok hfirst] at h
      cases hrest : (registry.serve admitted rs
          (registry.serveOne admitted r world).world).outcome with
      | error stop => simp [Service.map, hrest, Except.map] at h
      | ok rest =>
        simp only [Service.map, hrest, Except.map, Except.ok.injEq] at h
        rw [← h, List.length_cons, ih hrest, List.length_cons]

/-- A request is made at most once. -/
theorem made_of_serveOne (registry : Registry σ) (admitted : Request → Bool) (r : Request)
    (world : σ) :
    (registry.serveOne admitted r world).made = if admitted r then [r] else [] := by
  unfold serveOne
  split <;> rfl

/-- Requests are made in order, each at most once. -/
theorem made_of_serve_prefix_of (registry : Registry σ) (admitted : Request → Bool)
    (requests : List Request) (world : σ) :
    (registry.serve admitted requests world).made <+: requests := by
  induction requests generalizing world with
  | nil => exact List.nil_prefix
  | cons r rs ih =>
    rw [serve]
    have hfirst := made_of_serveOne registry admitted r world
    cases houtcome : (registry.serveOne admitted r world).outcome with
    | error stop =>
      rw [Service.bind_of_error houtcome, hfirst]
      split
      · exact ⟨rs, rfl⟩
      · exact List.nil_prefix
    | ok text =>
      -- Only a request that was made yields a text.
      have hadmitted : admitted r = true := by
        cases hadmitted : admitted r with
        | true => rfl
        | false => simp [serveOne, hadmitted] at houtcome
      rw [Service.bind_of_ok houtcome, hfirst, if_pos hadmitted]
      exact (List.prefix_append_right_inj [r]).mpr (ih _)

/-- Requests stop for one of them that yields no text or that is not admitted. -/
theorem serve_error {registry : Registry σ} {admitted : Request → Bool} {requests : List Request}
    {world : σ} {stop : Stop} (h : (registry.serve admitted requests world).outcome = .error stop) :
    (∃ r ∈ requests, ∃ failure, stop = r.stop failure) ∨ stop = .broken .tooLongToWrite := by
  induction requests generalizing world with
  | nil => cases h
  | cons r rs ih =>
    rw [serve] at h
    cases hfirst : (registry.serveOne admitted r world).outcome with
    | error first =>
      -- Nothing is asked for after a request that stops.
      rw [Service.bind_of_error hfirst] at h
      cases h
      unfold serveOne at hfirst
      split at hfirst
      · rcases hanswer : registry.answer r world with ⟨failure | text, _⟩ <;>
          rw [hanswer] at hfirst <;> cases hfirst
        exact .inl ⟨r, List.mem_cons_self, failure, rfl⟩
      · cases hfirst
        exact .inr rfl
    | ok text =>
      rw [Service.bind_of_ok hfirst] at h
      cases hrest : (registry.serve admitted rs
          (registry.serveOne admitted r world).world).outcome with
      | error rest =>
        simp only [Service.map, hrest, Except.map, Except.error.injEq] at h
        subst h
        rcases ih hrest with ⟨r', hmem, failure, hstop⟩ | hstop
        · exact .inl ⟨r', List.mem_cons_of_mem r hmem, failure, hstop⟩
        · exact .inr hstop
      | ok texts => simp [Service.map, hrest, Except.map] at h

end Registry

namespace Step

variable {σ : Type}

/-- What a step asks of its operation, with the paths among the parameters anchored. -/
def request (s : Step) (directory : Option Path) (index : Option Nat) (parameters : Parameters) :
    Request :=
  ⟨s.operationName, anchorPaths directory parameters, ⟨s.name, index, directory⟩⟩

/-- The requests for the parameters of the items from a position on. -/
def itemRequests (s : Step) (directory : Option Path) (index : Nat) (all : List Parameters) :
    List Request :=
  (all.zipIdx index).map fun (parameters, i) =>
    s.request directory (some i) (s.withDefaultOutputPath parameters)

/-- A step stops for a loop that cannot be expanded: it has no items, or a placeholder of the
parameters cannot be followed, which comes up at the first item. -/
def stopExpansion (s : Step) (loop : Loop) (results : Results) (e : Loop.Error) : Stop :=
  match loop.discover results, e with
  | .ok _, .pointer e => s.stopAt (some 0) e
  | _, e => s.stopDiscovery e

/-- The requests of a step: one for a step without a loop, one for each item for a step with one. -/
def requests (s : Step) (directory : Option Path) (results : Results) :
    Except Stop (List Request) :=
  match s.loop with
  | none =>
    match Substitution.inEntries results s.parameters with
    | .error e => .error (s.stopAt none e)
    | .ok parameters => .ok [s.request directory none (s.withOutputPath parameters)]
  | some loop =>
    match loop.expand s.parameters results with
    | .error e => .error (s.stopExpansion loop results e)
    | .ok all => .ok (s.itemRequests directory 0 all)

/-- What a step captures from the texts of its requests. -/
def captured (s : Step) (texts : List String) : Execution :=
  ⟨[(s.outputName, Capture.combine texts s.outputFormat)], s.loop.map fun _ => texts.length⟩

/-- What comes of the requests of a step. -/
def perform (s : Step) (registry : Registry σ) (admitted : Request → Bool)
    (directory : Option Path) (results : Results) (world : σ) : Service σ Execution :=
  match s.requests directory results with
  | .error stop => ⟨[], .error stop, world⟩
  | .ok requests => (registry.serve admitted requests world).map s.captured

end Step

/-! ## What running a step does -/

/-- A record that differs from another one at most in that the step has moved on to its parameters
or its call. -/
def Record.Moved (r r' : Record) : Prop :=
  ∃ status ∈ [r.status, .resolving, .invoking], r' = { r with status := status }

namespace Record.Moved

theorem refl (r : Record) : r.Moved r :=
  ⟨r.status, List.mem_cons_self, rfl⟩

theorem resolving (r : Record) : r.Moved { r with status := .resolving } :=
  ⟨.resolving, by simp, rfl⟩

theorem invoking (r : Record) : r.Moved { r with status := .invoking } :=
  ⟨.invoking, by simp, rfl⟩

theorem trans {r r' r'' : Record} (h : r.Moved r') (h' : r'.Moved r'') : r.Moved r'' := by
  obtain ⟨status, hstatus, rfl⟩ := h
  obtain ⟨status', hstatus', rfl⟩ := h'
  refine ⟨status', ?_, rfl⟩
  rcases List.mem_cons.mp hstatus' with rfl | hmoved
  · exact hstatus
  · exact List.mem_cons_of_mem _ hmoved

end Record.Moved

namespace Setting

variable {σ : Type}

/-- The calls that requests become: those for operations that are registered, made while the record
of the step stands at its call. -/
def callsOf (setting : Setting σ) (record : Record) (made : List Request) : List Call :=
  (made.filter fun r => setting.registry.has r.operation).map fun r =>
    r.toCall (setting.statuses { record with status := .invoking })

theorem callsOf_append (setting : Setting σ) (record : Record) (first second : List Request) :
    setting.callsOf record (first ++ second) =
      setting.callsOf record first ++ setting.callsOf record second := by
  simp [callsOf]

/-- Calls are made in the record of the step, wherever the step stood before. -/
theorem callsOf_eq_of_moved {setting : Setting σ} {record record' : Record}
    (h : record.Moved record') (made : List Request) :
    setting.callsOf record' made = setting.callsOf record made := by
  obtain ⟨_, -, rfl⟩ := h
  rfl

end Setting

namespace Service

variable {σ α β : Type} {setting : Setting σ} {start : Progress σ}

/-- A service describes what part of a step has come to from a start: it led to the same, made the
same calls, and left the step's record as it was but for where the step stands. -/
structure Describes (service : Service σ α) (setting : Setting σ) (start : Progress σ)
    (result : Except Stop α × Progress σ) : Prop where
  /-- The outcomes agree. -/
  outcome : result.1 = service.outcome
  /-- The worlds agree. -/
  world : result.2.world = service.world
  /-- The calls are those of the requests. -/
  calls : result.2.calls = start.calls ++ setting.callsOf start.record service.made
  /-- Nothing in the record changes but the status. -/
  record : start.record.Moved result.2.record

/-- A part of a step that makes no requests. -/
theorem describes_idle (outcome : Except Stop α) {p : Progress σ} (hworld : p.world = start.world)
    (hcalls : p.calls = start.calls) (hrecord : start.record.Moved p.record) :
    Describes ⟨[], outcome, start.world⟩ setting start (outcome, p) :=
  ⟨rfl, hworld, by simp [hcalls, Setting.callsOf], hrecord⟩

/-- A description holds from any start with the same calls that differs in the status and the log
only. -/
theorem Describes.of_start {service : Service σ α} {p : Progress σ}
    {result : Except Stop α × Progress σ} (h : service.Describes setting p result)
    (hcalls : p.calls = start.calls) (hrecord : start.record.Moved p.record) :
    service.Describes setting start result := by
  refine ⟨h.outcome, h.world, ?_, hrecord.trans h.record⟩
  rw [h.calls, hcalls, Setting.callsOf_eq_of_moved hrecord]

/-- Where the first part of a step stops, so does the whole. -/
theorem Describes.bind_error {x : Service σ α} {f : α → σ → Service σ β} {stop : Stop}
    {p : Progress σ} (h : x.Describes setting start (.error stop, p)) :
    (x.bind f).Describes setting start (.error stop, p) := by
  rw [bind_of_error h.outcome.symm]
  exact ⟨rfl, h.world, h.calls, h.record⟩

/-- Where the first part of a step comes to a result, the second goes on from there. -/
theorem Describes.bind_ok {x : Service σ α} {f : α → σ → Service σ β} {a : α} {p : Progress σ}
    {result : Except Stop β × Progress σ} (h : x.Describes setting start (.ok a, p))
    (hnext : (f a p.world).Describes setting p result) :
    (x.bind f).Describes setting start result := by
  have hworld : p.world = x.world := h.world
  have hcalls : p.calls = start.calls ++ setting.callsOf start.record x.made := h.calls
  rw [hworld] at hnext
  rw [bind_of_ok h.outcome.symm]
  refine ⟨hnext.outcome, hnext.world, ?_, h.record.trans hnext.record⟩
  rw [hnext.calls, hcalls, Setting.callsOf_eq_of_moved h.record, Setting.callsOf_append,
    List.append_assoc]

/-- The result of a part of a step may be turned into another one. -/
theorem Describes.map {x : Service σ α} (f : α → β) {result : Except Stop α × Progress σ}
    (h : x.Describes setting start result) :
    (x.map f).Describes setting start (result.1.map f, result.2) :=
  ⟨congrArg (Except.map f) h.outcome, h.world, h.calls, h.record⟩

end Service

namespace Loop

/-- Items are put into parameters whose placeholders can be followed. -/
theorem expand_of_ok {l : Loop} {parameters resolved : Parameters} {results : Results}
    {items : List String} (hitems : l.discover results = .ok items)
    (hresolved : Substitution.inEntries results parameters = .ok resolved) :
    l.expand parameters results = .ok (items.map fun item => l.putItem item resolved) := by
  have happly (item : String) : l.applyItem parameters item results =
      .ok (l.putItem item resolved) := by
    simp [applyItem, hresolved, Except.map]
  have hmap : ∀ items : List String,
      items.mapM (fun item => (l.applyItem parameters item results).mapError Error.pointer) =
        .ok (items.map fun item => l.putItem item resolved) := by
    intro items
    induction items with
    | nil => rfl
    | cons item items ih => rw [List.mapM_cons, ih, happly]; rfl
  rw [expand, hitems]
  exact hmap items

/-- A placeholder that cannot be followed comes up at the first item, and there always is one. -/
theorem expand_of_error {l : Loop} {parameters : Parameters} {results : Results}
    {items : List String} {e : Pointer.Error} (hitems : l.discover results = .ok items)
    (hresolved : Substitution.inEntries results parameters = .error e) :
    l.expand parameters results = .error (.pointer e) := by
  -- There is a first item, and it meets the error whatever it is.
  obtain ⟨item, rest, rfl⟩ := List.exists_cons_of_ne_nil (discover_ne_nil hitems)
  rw [expand, hitems]
  change (item :: rest).mapM (fun item =>
    (l.applyItem parameters item results).mapError Error.pointer) = _
  rw [List.mapM_cons, (applyItem_eq_error_iff l parameters item results e).mpr hresolved]
  rfl

/-- Without items there is nothing to put into parameters. -/
theorem expand_of_discover {l : Loop} {parameters : Parameters} {results : Results} {e : Error}
    (hitems : l.discover results = .error e) : l.expand parameters results = .error e := by
  rw [expand, hitems]
  rfl

end Loop

namespace Step

variable {σ : Type} (setting : Setting σ)

/-- The calls that a step has made once it comes to call its operation. -/
theorem calls_of_request (s : Step) (parameters : Parameters) (index : Option Nat)
    (record : Record) :
    setting.callsOf record
        [⟨s.operationName, parameters, ⟨s.name, index, setting.workflowDirectory⟩⟩] =
      if setting.registry.has s.operationName then
        [⟨s.operationName, parameters, ⟨s.name, index, setting.workflowDirectory⟩,
          setting.statuses { record with status := .invoking }⟩]
      else [] := by
  cases h : setting.registry.has s.operationName <;> simp [Setting.callsOf, h, Request.toCall]

/-- Calling the operation of a step does what its request says. -/
theorem call_describes (s : Step) (parameters : Parameters) (index : Option Nat)
    (p : Progress σ) :
    (setting.registry.serveOne Request.isShowable
        ⟨s.operationName, parameters, ⟨s.name, index, setting.workflowDirectory⟩⟩
        p.world).Describes setting p (s.call setting parameters index p) := by
  unfold call Value.written? Registry.serveOne Registry.answer Request.isShowable
  cases hlong : (Value.map parameters).holdsLongInteger with
  | true => exact Service.describes_idle _ rfl rfl (.invoking _)
  | false =>
    have hcalls := s.calls_of_request setting parameters index p.record
    rcases hinvoke : setting.registry.invoke s.operationName parameters
      ⟨s.name, index, setting.workflowDirectory⟩ p.world with ⟨answer, world⟩
    -- An operation that is not registered is not called, but asking for it is answered anyway.
    cases answer with
    | error failure =>
      cases hhas : setting.registry.has s.operationName <;>
        simp only [hhas, hinvoke, Progress.moveTo, Progress.report, Bool.not_false, if_true,
          if_false, Bool.false_eq_true] at hcalls ⊢ <;>
        exact ⟨rfl, rfl, by simp [hcalls], .invoking _⟩
    | ok value =>
      cases htext : Capture.toText value s.name <;>
        cases hhas : setting.registry.has s.operationName <;>
        simp only [hhas, hinvoke, htext, Progress.moveTo, Progress.report, Bool.not_false, if_true,
          if_false, Bool.false_eq_true] at hcalls ⊢ <;>
        exact ⟨rfl, rfl, by simp [hcalls], .invoking _⟩

/-- Calling the operation of a step for items does what their requests say. -/
theorem runItems_describes (s : Step) (loop : Loop) (results : Results) {resolved : Parameters}
    (hresolved : Substitution.inEntries results s.parameters = .ok resolved) (index : Nat)
    (items : List String) (p : Progress σ) :
    (setting.registry.serve Request.isShowable
        (s.itemRequests setting.workflowDirectory index
          (items.map fun item => loop.putItem item resolved))
        p.world).Describes setting p (s.runItems loop setting results index items p) := by
  induction items generalizing index p with
  | nil => exact Service.describes_idle _ rfl rfl (.refl _)
  | cons item items ih =>
    -- The results stay the same while a step runs, so that placeholders are replaced by the same
    -- texts for every item.
    have happly : loop.applyItem s.parameters item results = .ok (loop.putItem item resolved) := by
      simp [Loop.applyItem, hresolved, Except.map]
    have hcall := s.call_describes setting
      (anchorPaths setting.workflowDirectory
        (s.withDefaultOutputPath (loop.putItem item resolved)))
      (some index) (p.moveTo .resolving)
    have hcall : Service.Describes _ setting p _ := hcall.of_start rfl (.resolving _)
    rw [runItems, happly]
    simp only [itemRequests, List.map_cons, List.zipIdx_cons, Registry.serve]
    rcases hr : s.call setting _ (some index) (p.moveTo .resolving) with ⟨stop | text, q⟩ <;>
      rw [hr] at hcall
    -- A call that stops ends the loop; otherwise the other items follow.
    · exact hcall.bind_error
    · refine hcall.bind_ok ?_
      have hrest := (ih (index + 1) q).map (text :: ·)
      simp only
      rcases hitems : s.runItems loop setting results (index + 1) items q with
        ⟨stop | texts, q'⟩ <;> rw [hitems] at hrest
      · exact hrest
      · exact hrest

/-- A step without a loop makes one request. -/
theorem requests_of_single {s : Step} (hloop : s.loop = none) (directory : Option Path)
    (results : Results) :
    s.requests directory results =
      ((Substitution.inEntries results s.parameters).mapError (s.stopAt none)).map
        fun parameters => [s.request directory none (s.withOutputPath parameters)] := by
  simp only [requests, hloop]
  cases Substitution.inEntries results s.parameters <;> rfl

/-- A step with a loop makes the requests that expanding the loop gives. -/
theorem requests_of_loop {s : Step} {loop : Loop} (hloop : s.loop = some loop)
    (directory : Option Path) (results : Results) :
    s.requests directory results =
      ((loop.expand s.parameters results).mapError (s.stopExpansion loop results)).map
        (s.itemRequests directory 0) := by
  simp only [requests, hloop]
  cases loop.expand s.parameters results <;> rfl

/-- Whatever a step asks for, it asks of its own operation and in its own name. -/
theorem of_mem_requests {s : Step} {directory : Option Path} {results : Results}
    {requests : List Request} (h : s.requests directory results = .ok requests) {r : Request}
    (hr : r ∈ requests) : r.operation = s.operationName ∧ r.context.stepName = s.name := by
  cases hloop : s.loop with
  | none =>
    rw [requests_of_single hloop] at h
    cases hresolved : Substitution.inEntries results s.parameters with
    | error e => rw [hresolved] at h; cases h
    | ok parameters =>
      rw [hresolved] at h
      cases h
      rw [List.mem_singleton.mp hr]
      exact ⟨rfl, rfl⟩
  | some loop =>
    rw [requests_of_loop hloop] at h
    cases hexpand : loop.expand s.parameters results with
    | error e => rw [hexpand] at h; cases h
    | ok all =>
      rw [hexpand] at h
      cases h
      obtain ⟨_, _, rfl⟩ := List.mem_map.mp hr
      exact ⟨rfl, rfl⟩

theorem stopAt_failed {s : Step} {index : Option Nat} {e : Pointer.Error} {failure : StepFailure}
    (h : s.stopAt index e = .failed failure) :
    ∃ reason, e = .unresolved reason ∧
      failure = ⟨s.name, .resolution, index, .unresolved reason⟩ := by
  cases e with
  | unresolved reason =>
    cases h
    exact ⟨reason, rfl, rfl⟩
  | index fault => cases h

/-- A step makes out its requests only if its parameters and its items can be made out. -/
theorem requests_ok {s : Step} {directory : Option Path} {results : Results}
    {requests : List Request} (h : s.requests directory results = .ok requests) :
    (∃ resolved, Substitution.inEntries results s.parameters = .ok resolved) ∧
      ∀ loop, s.loop = some loop → ∃ items, loop.discover results = .ok items := by
  cases hloop : s.loop with
  | none =>
    rw [requests_of_single hloop] at h
    cases hresolved : Substitution.inEntries results s.parameters with
    | error e => rw [hresolved] at h; cases h
    | ok resolved => exact ⟨⟨resolved, rfl⟩, fun _ hnone => by cases hnone⟩
  | some loop =>
    rw [requests_of_loop hloop] at h
    cases hitems : loop.discover results with
    | error e => rw [Loop.expand_of_discover hitems] at h; cases h
    | ok items =>
      cases hresolved : Substitution.inEntries results s.parameters with
      | error e => rw [Loop.expand_of_error hitems hresolved] at h; cases h
      | ok resolved =>
        refine ⟨⟨resolved, rfl⟩, ?_⟩
        rintro _ ⟨⟩
        exact ⟨items, hitems⟩

/-- A step cannot make out its requests for its items or for its parameters; in a loop the
parameters come up at the first item. -/
theorem requests_error {s : Step} {directory : Option Path} {results : Results} {stop : Stop}
    (h : s.requests directory results = .error stop) :
    (∃ loop e, s.loop = some loop ∧ loop.discover results = .error e ∧
      stop = s.stopDiscovery e) ∨
    ∃ index e, Substitution.inEntries results s.parameters = .error e ∧
      stop = s.stopAt index e := by
  cases hloop : s.loop with
  | none =>
    rw [requests_of_single hloop] at h
    cases hresolved : Substitution.inEntries results s.parameters with
    | error e =>
      rw [hresolved] at h
      cases h
      exact .inr ⟨none, e, rfl, rfl⟩
    | ok resolved => rw [hresolved] at h; cases h
  | some loop =>
    rw [requests_of_loop hloop] at h
    cases hitems : loop.discover results with
    | error e =>
      rw [Loop.expand_of_discover hitems] at h
      have hstop : s.stopExpansion loop results e = stop := Except.error.inj h
      simp only [stopExpansion, hitems] at hstop
      exact .inl ⟨loop, e, rfl, hitems, hstop.symm⟩
    | ok items =>
      cases hresolved : Substitution.inEntries results s.parameters with
      | error e =>
        rw [Loop.expand_of_error hitems hresolved] at h
        have hstop : s.stopExpansion loop results (.pointer e) = stop := Except.error.inj h
        simp only [stopExpansion, hitems] at hstop
        exact .inr ⟨some 0, e, rfl, hstop.symm⟩
      | ok resolved => rw [Loop.expand_of_ok hitems hresolved] at h; cases h

/-- A step that fails before it asks for anything fails in its own name, while it makes out its
parameters or items. -/
theorem requests_failed {s : Step} {directory : Option Path} {results : Results}
    {failure : StepFailure} (h : s.requests directory results = .error (.failed failure)) :
    failure.step = s.name ∧ failure.kind = .resolution := by
  rcases requests_error h with ⟨loop, e, -, -, hstop⟩ | ⟨index, e, -, hstop⟩
  · cases e with
    | pointer e =>
      obtain ⟨_, _, rfl⟩ := stopAt_failed hstop.symm
      exact ⟨rfl, rfl⟩
    | noArrayField => cases hstop; exact ⟨rfl, rfl⟩
    | noItems => cases hstop; exact ⟨rfl, rfl⟩
  · obtain ⟨_, _, rfl⟩ := stopAt_failed hstop.symm
    exact ⟨rfl, rfl⟩

theorem perform_of_error {s : Step} {registry : Registry σ} {admitted : Request → Bool}
    {directory : Option Path} {results : Results} {world : σ} {stop : Stop}
    (h : s.requests directory results = .error stop) :
    s.perform registry admitted directory results world = ⟨[], .error stop, world⟩ := by
  rw [perform, h]

theorem perform_of_ok {s : Step} {registry : Registry σ} {admitted : Request → Bool}
    {directory : Option Path} {results : Results} {world : σ} {requests : List Request}
    (h : s.requests directory results = .ok requests) :
    s.perform registry admitted directory results world =
      (registry.serve admitted requests world).map s.captured := by
  rw [perform, h]

/-- A step makes none but its own requests. -/
theorem mem_requests_of_made {s : Step} {registry : Registry σ} {admitted : Request → Bool}
    {directory : Option Path} {results : Results} {world : σ} {r : Request}
    (h : r ∈ (s.perform registry admitted directory results world).made) :
    ∃ requests, s.requests directory results = .ok requests ∧ r ∈ requests := by
  cases hrequests : s.requests directory results with
  | error stop => simp [perform_of_error hrequests] at h
  | ok requests =>
    rw [perform_of_ok hrequests] at h
    exact ⟨requests, rfl, (registry.made_of_serve_prefix_of admitted requests world).mem h⟩

/-- A step stops while it makes out its requests, for one of them that yields no text, or for one
that is not admitted. -/
theorem perform_error {s : Step} {registry : Registry σ} {admitted : Request → Bool}
    {directory : Option Path} {results : Results} {world : σ} {stop : Stop}
    (h : (s.perform registry admitted directory results world).outcome = .error stop) :
    s.requests directory results = .error stop ∨
      (∃ requests, s.requests directory results = .ok requests ∧
        ∃ r ∈ requests, ∃ failure, stop = r.stop failure) ∨
      stop = .broken .tooLongToWrite := by
  cases hrequests : s.requests directory results with
  | error found =>
    rw [perform_of_error hrequests] at h
    cases h
    exact .inl rfl
  | ok requests =>
    rw [perform_of_ok hrequests] at h
    cases hserve : (registry.serve admitted requests world).outcome with
    | error found =>
      simp only [Service.map, hserve, Except.map, Except.error.injEq] at h
      subst h
      rcases Registry.serve_error hserve with hfailed | hbroken
      · exact .inr (.inl ⟨requests, rfl, hfailed⟩)
      · exact .inr (.inr hbroken)
    | ok texts => simp [Service.map, hserve, Except.map] at h

/-- A step that fails does so in its own name. -/
theorem step_of_perform_failed {s : Step} {registry : Registry σ} {admitted : Request → Bool}
    {directory : Option Path} {results : Results} {world : σ} {failure : StepFailure}
    (h : (s.perform registry admitted directory results world).outcome =
      .error (.failed failure)) : failure.step = s.name := by
  rcases perform_error h with hrequests | ⟨requests, hrequests, r, hr, _, hstop⟩ | hstop
  · exact (requests_failed hrequests).1
  · cases hstop
    exact (of_mem_requests hrequests hr).2
  · cases hstop

/-- The text of the one request of a step without a loop is what it captures. -/
theorem captured_singleton {s : Step} (hloop : s.loop = none) (text : String) :
    s.captured [text] = ⟨[(s.outputName, ⟨text, s.outputFormat⟩)], none⟩ := by
  simp [captured, hloop, Capture.combine, Text.join, Text.joinWith]

/-- Running a step without a loop does what performing it says. -/
theorem runSingle_describes {s : Step} (hloop : s.loop = none) (results : Results)
    (p : Progress σ) :
    (s.perform setting.registry Request.isShowable setting.workflowDirectory results
      p.world).Describes setting p (s.runSingle setting results p) := by
  have hrequests := requests_of_single hloop setting.workflowDirectory results
  cases hresolved : Substitution.inEntries results s.parameters with
  | error e =>
    rw [hresolved] at hrequests
    rw [perform_of_error hrequests, runSingle, hresolved]
    exact Service.describes_idle _ rfl rfl (.resolving _)
  | ok parameters =>
    have hcall := s.call_describes setting
      (anchorPaths setting.workflowDirectory (s.withOutputPath parameters)) none
      (p.moveTo .resolving)
    have hcall : Service.Describes _ setting p _ := hcall.of_start rfl (.resolving _)
    have hall := (hcall.map ([·])).map s.captured
    rw [hresolved] at hrequests
    rw [perform_of_ok hrequests, Registry.serve_singleton, runSingle, hresolved]
    simp only
    rcases hr : s.call setting _ none (p.moveTo .resolving) with ⟨stop | text, q⟩ <;>
      rw [hr] at hall
    · exact hall
    · change Service.Describes _ setting p (.ok (s.captured [text]), q) at hall
      rw [captured_singleton hloop] at hall
      exact hall

/-- Running a step with a loop does what performing it says. -/
theorem runLoop_describes {s : Step} {loop : Loop} (hloop : s.loop = some loop)
    (results : Results) (p : Progress σ) :
    (s.perform setting.registry Request.isShowable setting.workflowDirectory results
      p.world).Describes setting p (s.runLoop loop setting results p) := by
  have hrequests := requests_of_loop hloop setting.workflowDirectory results
  cases hitems : loop.discover results with
  | error e =>
    -- Without items the step stops before it looks at its parameters.
    rw [Loop.expand_of_discover hitems] at hrequests
    rw [perform_of_error hrequests, runLoop, hitems]
    simp only [stopExpansion, hitems]
    exact Service.describes_idle _ rfl rfl (.resolving _)
  | ok items =>
    cases hresolved : Substitution.inEntries results s.parameters with
    | error e =>
      -- The parameters come up at the first item, before any call.
      rw [Loop.expand_of_error hitems hresolved] at hrequests
      rw [perform_of_error hrequests, runLoop, hitems]
      obtain ⟨item, rest, rfl⟩ := List.exists_cons_of_ne_nil (Loop.discover_ne_nil hitems)
      have happly := (Loop.applyItem_eq_error_iff loop s.parameters item results e).mpr hresolved
      simp only [stopExpansion, hitems, runItems, happly]
      exact Service.describes_idle _ rfl rfl (.resolving _)
    | ok resolved =>
      rw [Loop.expand_of_ok hitems hresolved] at hrequests
      have hrun := s.runItems_describes setting loop results hresolved 0 items
        ((p.moveTo .resolving).report (loop.discovered items ++
          Log.info s!"Step '{s.name}': looping over {items.length} items as '{loop.itemName}'"))
      have hrun : Service.Describes _ setting p _ := hrun.of_start rfl (.resolving _)
      have hall := hrun.map s.captured
      rw [perform_of_ok hrequests, runLoop, hitems]
      simp only
      rcases hr : s.runItems loop setting results 0 items _ with ⟨stop | texts, q⟩ <;>
        rw [hr] at hall hrun
      · exact hall
      · -- The number of items that the record shows is the number of texts.
        have hlength := Registry.length_of_serve hrun.outcome.symm
        simp only [itemRequests, List.length_map, List.length_zipIdx] at hlength
        change Service.Describes _ setting p (.ok (s.captured texts), q) at hall
        rw [captured, hloop, hlength] at hall
        exact hall

/-- Running a step does what performing it says: it asks for all that expanding the step's
parameters gives, although it puts in an item only after the call for the one before. -/
theorem run_describes (s : Step) (results : Results) (p : Progress σ) :
    (s.perform setting.registry Request.isShowable setting.workflowDirectory results
      p.world).Describes setting p (s.run setting results p) := by
  unfold run
  cases hloop : s.loop with
  | none => exact runSingle_describes setting hloop results p
  | some loop => exact runLoop_describes setting hloop results p

end Step

end Runbook
