import Runbook.Proofs.Loop.Discovery
import Runbook.Proofs.Reference.Overlong
import Runbook.Proofs.Run.Alike
import Runbook.Proofs.Run.Failure

/-!
# Runs that break off

A run is to end in one of two ways: all steps have had their turns, or one of them has failed. There
is a third way that no step answers for. An integer of too many digits, which a placeholder uses as
an index or which the log is to show among the parameters of a call, stops the run where it stands,
and the summary goes on saying that the run is under way.

The module introduces:

* `Step.followed`: the placeholders that a step follows before it asks for anything;
* `Step.BreaksOff`: the two ways in which the turn of a step breaks off.

The main results are `Workflow.stop_eq_broken_iff`, which says when runs break off, and
`Workflow.run_ends_settled`.
-/

namespace Runbook

variable {σ : Type}

namespace Step

variable {s : Step} {directory : Option Path} {results : Results}

/-- The placeholders that a step follows while it makes out its requests, in order: those of its
loop's input and, once there are items, those of its parameters. -/
def followed (s : Step) (results : Results) : List Reference :=
  match s.loop with
  | none => Reference.ofEntries s.parameters
  | some loop =>
    Reference.ofText loop.inputData ++
      match loop.discover results with
      | .ok _ => Reference.ofEntries s.parameters
      | .error _ => []

theorem isScannable_of_mem_followed {r : Reference} (h : r ∈ s.followed results) :
    r.IsScannable := by
  unfold followed at h
  split at h
  · exact Reference.isScannable_of_mem_ofEntries h
  · rcases List.mem_append.mp h with h | h
    · exact Reference.isScannable_of_mem_ofText h
    · split at h
      · exact Reference.isScannable_of_mem_ofEntries h
      · cases h

@[simp]
theorem stopAt_eq_broken_iff {index : Option Nat} {e : Pointer.Error}
    {fault : Number.IntegerFault} : s.stopAt index e = .broken fault ↔ e = .index fault := by
  cases e <;> simp [stopAt, fail]

@[simp]
theorem stopDiscovery_eq_broken_iff {e : Loop.Error} {fault : Number.IntegerFault} :
    s.stopDiscovery e = .broken fault ↔ e = .pointer (.index fault) := by
  cases e <;> simp [stopDiscovery, fail]

/-- What keeps parameters from being made out is the first placeholder that cannot be followed. -/
theorem firstFault_eq_some_iff {entries : Parameters} {e : Pointer.Error} :
    Reference.firstFault results (Reference.ofEntries entries) = some e ↔
      Substitution.inEntries results entries = .error e := by
  rw [← Substitution.fault_inEntries, fault_eq_some_iff]

/-- Requests cannot be made out, and no step answers for it, just if the first placeholder that
cannot be followed has an index that cannot be read. -/
theorem requests_eq_broken_iff {fault : Number.IntegerFault} :
    s.requests directory results = .error (.broken fault) ↔
      Reference.firstFault results (s.followed results) = some (.index fault) := by
  unfold followed
  cases hloop : s.loop with
  | none =>
    rw [requests_of_single hloop, firstFault_eq_some_iff]
    cases Substitution.inEntries results s.parameters <;>
      simp [Except.map, mapError_ok, mapError_error]
  | some loop =>
    rw [requests_of_loop hloop, Reference.firstFault_append, ← Substitution.fault_inText]
    cases hitems : loop.discover results with
    | error e =>
      rw [Loop.expand_of_discover hitems]
      simp only [mapError_error, Except.map, stopExpansion, hitems, Except.error.injEq,
        stopDiscovery_eq_broken_iff, Reference.firstFault, List.findSome?_nil, Option.or_none,
        fault_eq_some_iff]
      constructor
      · rintro rfl
        exact Loop.discover_eq_pointer_iff.mp hitems
      · intro hinput
        cases hitems.symm.trans (Loop.discover_eq_pointer_iff.mpr hinput)
        rfl
    | ok items =>
      -- The input has been made out, so that the parameters decide.
      obtain ⟨input, hinput⟩ := Loop.exists_inText_of_discover hitems
      rw [hinput, fault?, Option.none_or, firstFault_eq_some_iff]
      cases hresolved : Substitution.inEntries results s.parameters with
      | error e =>
        rw [Loop.expand_of_error hitems hresolved]
        simp [mapError_error, Except.map, stopExpansion, hitems]
      | ok resolved =>
        rw [Loop.expand_of_ok hitems hresolved]
        simp [mapError_ok, Except.map]

/-- The turn of a step breaks off: the first of its placeholders that cannot be followed is
overlong, or a request whose parameters the log cannot show comes after others that have been
answered. -/
inductive BreaksOff (registry : Registry σ) (directory : Option Path) (state : RunState σ)
    (s : Step) : Number.IntegerFault → Prop
  | overlong {done rest : List Reference} {r : Reference} {count : Nat} :
      s.followed state.results = done ++ r :: rest →
      (∀ q ∈ done, q.fault state.results = none) → r.IsOverlong state.results count →
      BreaksOff registry directory state s (.tooManyDigits count)
  | unshowable {done rest : List Request} {r : Request} {texts : List String} {now : σ} :
      s.requests directory state.results = .ok (done ++ r :: rest) →
      registry.Answers done state.world texts now → (∀ q ∈ done, q.isShowable = true) →
      r.isShowable = false → BreaksOff registry directory state s .tooLongToWrite

/-- A step stops without an answer for it just if its turn breaks off. -/
theorem perform_eq_broken_iff {registry : Registry σ} {state : RunState σ}
    {fault : Number.IntegerFault} :
    (s.perform registry Request.isShowable directory state.results state.world).outcome =
      .error (.broken fault) ↔ s.BreaksOff registry directory state fault := by
  constructor
  · intro h
    cases hrequests : s.requests directory state.results with
    | error stop =>
      rw [perform_of_error hrequests] at h
      obtain rfl : stop = .broken fault := Except.error.inj h
      obtain ⟨done, r, rest, hsplit, hfault, hdone⟩ :=
        List.findSome?_eq_some_iff.mp (requests_eq_broken_iff.mp hrequests)
      have hr : r ∈ s.followed state.results := by simp [hsplit]
      obtain ⟨count, hoverlong, rfl⟩ :=
        (Reference.fault_eq_index_iff (isScannable_of_mem_followed hr)).mp hfault
      exact .overlong hsplit hdone hoverlong
    | ok requests =>
      -- An operation that fails is answered for, and so it is the log that ends the turn.
      rw [perform_of_ok hrequests] at h
      cases hserve : (registry.serve Request.isShowable requests state.world).outcome with
      | ok texts => simp [Service.map, hserve, Except.map] at h
      | error stop =>
        simp only [Service.map, hserve, Except.map, Except.error.injEq] at h
        subst h
        obtain ⟨done, r, rest, texts, now, rfl, hdone, hshown, hends⟩ :=
          Registry.serve_stops hserve
        rcases hends with ⟨-, -, reason, -, hreason⟩ | ⟨hr, -, hstop⟩
        · cases hreason
        · cases hstop
          exact .unshowable hrequests hdone hshown hr
  · intro h
    cases h with
    | overlong hsplit hdone hoverlong =>
      rename_i done rest r count
      have hr : r ∈ s.followed state.results := by simp [hsplit]
      have hfault : r.fault state.results = some (.index (.tooManyDigits count)) :=
        (Reference.fault_eq_index_iff (isScannable_of_mem_followed hr)).mpr
          ⟨count, hoverlong, rfl⟩
      have hfirst := List.findSome?_eq_some_iff.mpr ⟨done, r, rest, hsplit, hfault, hdone⟩
      rw [perform_of_error (requests_eq_broken_iff.mpr hfirst)]
    | unshowable hrequests hdone hshown hr =>
      rename_i done rest r texts now
      rw [perform_of_ok hrequests]
      have hone : registry.serveOne Request.isShowable r now =
          ⟨[], .error (.broken .tooLongToWrite), now⟩ := by
        simp [Registry.serveOne, hr]
      have hrest : (registry.serve Request.isShowable (r :: rest) now).outcome =
          .error (.broken .tooLongToWrite) := by
        rw [Registry.serve, hone, Service.bind_of_error rfl]
      simp only [Service.map, hdone.serve_append hshown, hrest, Except.map]

end Step

namespace Workflow

variable {w : Workflow} {registry : Registry σ} {world : σ} {before after : List Step}
  {state : RunState σ} {step : Step} {fault : Number.IntegerFault}

/-- A run goes on from every state that it comes through. -/
theorem Reaches.turns_eq (h : w.Reaches registry world before state after) :
    turns registry w.baseDirectory (w.start world) w.steps =
      turns registry w.baseDirectory state after := by
  induction h with
  | start => rfl
  | next _ hstop ih => rw [ih, turns_of_goes_on hstop]

/-- A run breaks off just if it comes to the turn of an enabled step that does. -/
theorem stop_eq_broken_iff :
    (w.runValid registry world).stop = some (.broken fault) ↔
      ∃ before state step after, w.Reaches registry world before state (step :: after) ∧
        step.enabled = true ∧ step.BreaksOff registry w.baseDirectory state fault := by
  constructor
  · intro h
    rcases runValid_ends w registry world with
      ⟨state, hreached, hrun⟩ | ⟨before, state, step, after, stop, hreached, hstop, hrun⟩
    · rw [hrun] at h
      cases hreached.stop_eq.symm.trans h
    · rw [hrun] at h
      obtain rfl : stop = .broken fault := Option.some.inj (hstop.symm.trans h)
      obtain ⟨henabled, houtcome, -⟩ :=
        turn_ends registry w.baseDirectory state step after hreached.stop_eq hstop
      exact ⟨before, state, step, after, hreached, henabled,
        Step.perform_eq_broken_iff.mp houtcome⟩
  · rintro ⟨before, state, step, after, hreached, henabled, hbreaks⟩
    obtain ⟨record, -, hturn, -⟩ := turn_stopped registry w.baseDirectory state step after henabled
      (Step.perform_eq_broken_iff.mpr hbreaks)
    have hend : (w.runValid registry world).stop =
        (turns registry w.baseDirectory (w.start world) w.steps).stop := rfl
    rw [hend, hreached.turns_eq, turns_of_stops hturn.stop]
    exact hturn.stop

/-- A run that breaks off leaves a step at its parameters or its call. -/
theorem exists_record_of_broken (h : (w.runValid registry world).stop = some (.broken fault)) :
    ∃ r ∈ (w.runValid registry world).summary.steps,
      r.status = .resolving ∨ r.status = .invoking := by
  rcases runValid_ends w registry world with
    ⟨state, hreached, hrun⟩ | ⟨before, state, step, after, stop, hreached, hstop, hrun⟩
  · rw [hrun] at h
    cases hreached.stop_eq.symm.trans h
  · rw [hrun] at h ⊢
    obtain rfl : stop = .broken fault := Option.some.inj (hstop.symm.trans h)
    obtain ⟨henabled, houtcome, -⟩ :=
      turn_ends registry w.baseDirectory state step after hreached.stop_eq hstop
    -- Nothing is written into the record of a step that breaks off.
    have hrecord : step.turnRecord registry w.baseDirectory state.results state.world =
        { Record.initial step with
          status := step.reached w.baseDirectory state.results } := by
      rw [Step.turnRecord, if_pos henabled, houtcome]
      rfl
    refine ⟨step.turnRecord registry w.baseDirectory state.results state.world,
      List.mem_append_left _ ?_, ?_⟩
    · rw [turn_records]
      exact List.mem_append_right _ List.mem_cons_self
    · rw [hrecord]
      unfold Step.reached
      split
      · exact .inl rfl
      · exact .inr rfl

/-- Where the records of steps stand that are settled. -/
theorem status_of_settled {records : List Record} {steps : List Step}
    (h : records.map Record.standing = steps.map Step.settled) {r : Record} (hr : r ∈ records) :
    r.status = .captured ∨ r.status = .skipped := by
  obtain ⟨step, -, hstep⟩ := List.mem_map.mp (h ▸ List.mem_map_of_mem hr)
  have hstatus : (if step.enabled then Status.captured else .skipped) = r.status :=
    congrArg Standing.status hstep
  rw [← hstatus]
  split
  · exact .inl rfl
  · exact .inr rfl

/-- Where the records stand of a run in which a step has failed. -/
theorem FailedAt.status_of_mem {run : Run σ} {failure : StepFailure}
    (h : FailedAt run before step after failure) {r : Record} (hr : r ∈ run.summary.steps) :
    r.status ∈ [Status.captured, .skipped, .failed, .pending] := by
  have hmem := List.mem_map_of_mem (f := Record.standing) hr
  rw [h.standings] at hmem
  rcases List.mem_append.mp hmem with hmem | hmem
  · obtain ⟨s, -, hs⟩ := List.mem_map.mp hmem
    have hstatus : (if s.enabled then Status.captured else .skipped) = r.status :=
      congrArg Standing.status hs
    rw [← hstatus]
    split <;> simp
  · rcases List.mem_cons.mp hmem with hs | hmem
    · have hstatus : r.status = .failed := congrArg Standing.status hs
      simp [hstatus]
    · obtain ⟨s, -, hs⟩ := List.mem_map.mp hmem
      have hstatus : .pending = r.status := congrArg Standing.status hs
      simp [← hstatus]

/-- How a run of a valid workflow ends. At its end all steps are captured or skipped; after a
failure no step is left at its parameters or its call. The run breaks off just if it comes to a step
with an overlong placeholder before any other that cannot be followed, or to a request whose
parameters the log cannot show; it is then still said to be running. A placeholder that is not
overlong leads to a value or nowhere. -/
theorem run_ends_settled (hvalid : w.validate = .ok ()) (registry : Registry σ) (world : σ) :
    (∃ run, w.run registry world = .ok run ∧
      (run.stop = none → run.summary.status = .completed ∧
        ∀ r ∈ run.summary.steps, r.status = .captured ∨ r.status = .skipped) ∧
      (∀ failure, run.stop = some (.failed failure) → run.summary.status = .failed ∧
        ∀ r ∈ run.summary.steps, r.status ∈ [Status.captured, .skipped, .failed, .pending]) ∧
      ∀ fault,
        (run.stop = some (.broken fault) ↔
          ∃ before state step after, w.Reaches registry world before state (step :: after) ∧
            step.enabled = true ∧ step.BreaksOff registry w.baseDirectory state fault) ∧
        (run.stop = some (.broken fault) → run.summary.status = .running ∧
          ∃ r ∈ run.summary.steps, r.status = .resolving ∨ r.status = .invoking)) ∧
      ∀ (results : Results) (v : Value) (e : Pointer.Error),
        Substitution.inValue results v = .error e →
          (∃ reason, e = .unresolved reason) ∨
            ∃ r ∈ Reference.ofValue v, ∃ count, r.IsOverlong results count ∧
              Number.maxDigits < count ∧ e = .index (.tooManyDigits count) := by
  have hnames := nodup_names hvalid
  refine ⟨⟨w.runValid registry world, run_of_validate hvalid registry world, ?_, ?_, ?_⟩,
    fun results v e h => Substitution.inValue_error h⟩
  · intro hstop
    have hfinished := finished_of_stop_eq hnames hstop
    exact ⟨hfinished.status, fun r hr => status_of_settled hfinished.standings hr⟩
  · intro failure hstop
    obtain ⟨before, step, after, -, hfailed⟩ := failedAt_of_stop_eq hnames hstop
    exact ⟨hfailed.status, fun r hr => hfailed.status_of_mem hr⟩
  · intro fault
    refine ⟨stop_eq_broken_iff, fun hstop => ⟨?_, exists_record_of_broken hstop⟩⟩
    have hstatus : (w.runValid registry world).summary.status =
        endStatus (w.runValid registry world).stop := rfl
    rw [hstatus, hstop]
    rfl

/-- An item far beyond the list that the first step captures, by an index of 4301 nines. -/
def overlongReference : Reference :=
  .ofPath "first" "Result" [String.ofList (List.replicate 4301 '9')]

/-- A workflow whose second step has a placeholder with an overlong index. -/
def overlongWorkflow : Workflow :=
  { steps := [
      { name := "first", type := "#list", enabled := true },
      { name := "second", type := "#list", enabled := true,
        parameters := [(.text "item", .text (String.ofList overlongReference.text))] }] }

/-- An operation that returns a list. -/
def listRegistry : Registry Nat :=
  { operations := [("list", fun _ _ calls => (.ok (.text "[1]"), calls + 1))] }

theorem overlongWorkflow_stop :
    (overlongWorkflow.runValid listRegistry 0).stop = some (.broken (.tooManyDigits 4301)) := by
  have hnines (c : Char) (hc : c ∈ (String.ofList (List.replicate 4301 '9')).toList) :
      c = '9' := by
    rw [String.toList_ofList] at hc
    exact List.eq_of_mem_replicate hc
  have hlength : (String.ofList (List.replicate 4301 '9')).length = 4301 := by
    rw [String.length_ofList, List.length_replicate]
  have hpath : Reference.AreSegments [String.ofList (List.replicate 4301 '9')] := by
    intro segment hsegment c hc
    rw [List.mem_singleton.mp hsegment] at hc
    rw [hnines c hc]
    decide
  have hmeets : Pointer.MeetsOverlong (.array [.number "1"])
      [String.ofList (List.replicate 4301 '9')] (String.ofList (List.replicate 4301 '9')).length :=
    .index (fun c hc => by rw [hnines c hc]; decide) (by rw [hlength]; decide)
  rw [hlength] at hmeets
  -- The first step has its turn by evaluation; the second is not evaluated but argued about, since
  -- its placeholder is long.
  have hgoes : (turn listRegistry none (overlongWorkflow.start 0) overlongWorkflow.steps[0]
      [overlongWorkflow.steps[1]]).stop = none := by decide +kernel
  have hstart : overlongWorkflow.Reaches listRegistry 0 [] (overlongWorkflow.start 0)
      [overlongWorkflow.steps[0], overlongWorkflow.steps[1]] := .start
  have hreached := hstart.next hgoes
  have hscannable : overlongReference.IsScannable :=
    Reference.isScannable_ofPath (by decide) (by decide) hpath
  have hfollowed (results : Results) :
      overlongWorkflow.steps[1].followed results = [] ++ overlongReference :: [] := by
    simp only [overlongWorkflow, List.getElem_cons_succ, List.getElem_cons_zero, Step.followed,
      Reference.ofEntries, Reference.ofValue, Reference.ofText_text hscannable, List.append_nil,
      List.nil_append]
  have hresults : (turn listRegistry none (overlongWorkflow.start 0) overlongWorkflow.steps[0]
      [overlongWorkflow.steps[1]]).results.lookup "first" =
        some [("Result", ⟨"[1]", "text"⟩)] := by decide +kernel
  have hoverlong : overlongReference.IsOverlong _ 4301 :=
    Reference.isOverlong_ofPath (by decide) hpath hresults rfl rfl hmeets
  exact stop_eq_broken_iff.mpr
    ⟨_, _, _, _, hreached, rfl, .overlong (hfollowed _) (by simp) hoverlong⟩

/-- The run breaks off in the turn of the second step, and it is said to be running for good. -/
theorem run_ends_settled_overlong :
    overlongWorkflow.validate = .ok () ∧
      ∃ run, overlongWorkflow.run listRegistry 0 = .ok run ∧
        run.stop = some (.broken (.tooManyDigits 4301)) ∧ run.summary.status = .running ∧
        ∃ r ∈ run.summary.steps, r.status = .resolving ∨ r.status = .invoking := by
  have hvalid : overlongWorkflow.validate = .ok () := rfl
  obtain ⟨⟨run, hrun, -, -, hbroken⟩, -⟩ := run_ends_settled hvalid listRegistry 0
  obtain rfl : run = overlongWorkflow.runValid listRegistry 0 := by
    rw [run_of_validate hvalid] at hrun
    exact (Except.ok.inj hrun).symm
  exact ⟨hvalid, _, hrun, overlongWorkflow_stop, (hbroken _).2 overlongWorkflow_stop⟩

end Workflow

end Runbook
