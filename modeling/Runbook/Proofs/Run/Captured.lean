import Mathlib.Data.List.Forall2
import Runbook.Delivery.Write
import Runbook.Proofs.Json.Acceptance
import Runbook.Proofs.Run.Standing
import Runbook.Proofs.Text.Split

/-!
# What runs capture

A step captures one text, which is not blank, under the name of its output and in its format. So
what a run has captured lists just the enabled steps that have had their turn, and the text of each
is found where a delivery looks for it.

The module introduces `Step.Captures`: what an entry of the results says of a step. The main results
are `Workflow.Reaches.captures` and `Delivery.item_of_captures`.
-/

namespace Runbook

variable {σ : Type}

/-! ## Texts that are not blank -/

/-- Texts that are joined are not blank if one of them is not. -/
theorem Text.not_isBlank_join {separator piece : String} {pieces : List String}
    (hpiece : piece ∈ pieces) (h : isBlank piece = false) :
    isBlank (join separator pieces) = false := by
  obtain ⟨c, hc, hspace⟩ := List.all_eq_false.mp h
  refine List.all_eq_false.mpr ⟨c, ?_, hspace⟩
  rw [join, String.toList_ofList]
  exact mem_joinWith (List.mem_map_of_mem hpiece) hc

namespace Registry

/-- The text that a request yields is not blank. -/
theorem not_isBlank_of_serveOne {registry : Registry σ} {admitted : Request → Bool} {r : Request}
    {world : σ} {text : String}
    (h : (registry.serveOne admitted r world).outcome = .ok text) : Text.isBlank text = false := by
  unfold serveOne at h
  split at h
  case isFalse => cases h
  case isTrue =>
    unfold answer at h
    -- A text comes only from a call that succeeds, and from a value that is captured.
    generalize registry.invoke r.operation r.parameters r.context world = called at h
    obtain ⟨failure | value, after⟩ := called
    · cases h
    · dsimp only at h
      cases htext : Capture.toText value r.context.stepName with
      | error e => rw [htext] at h; cases h
      | ok found =>
        rw [htext] at h
        obtain rfl := Except.ok.inj h
        exact Capture.not_isBlank_of_toText htext

/-- The texts that requests yield are not blank. -/
theorem not_isBlank_of_serve {registry : Registry σ} {admitted : Request → Bool}
    {requests : List Request} {world : σ} {texts : List String}
    (h : (registry.serve admitted requests world).outcome = .ok texts) :
    ∀ text ∈ texts, Text.isBlank text = false := by
  induction requests generalizing world texts with
  | nil =>
    cases h
    exact fun _ htext => by cases htext
  | cons r rs ih =>
    rw [serve] at h
    cases hfirst : (registry.serveOne admitted r world).outcome with
    | error stop => simp [Service.bind_of_error hfirst] at h
    | ok text =>
      rw [Service.bind_of_ok hfirst] at h
      cases hrest : (registry.serve admitted rs
          (registry.serveOne admitted r world).world).outcome with
      | error stop => simp [Service.map, hrest, Except.map] at h
      | ok rest =>
        simp only [Service.map, hrest, Except.map, Except.ok.injEq] at h
        rw [← h]
        exact List.forall_mem_cons.mpr ⟨not_isBlank_of_serveOne hfirst, ih hrest⟩

end Registry

namespace Step

/-- A step that knows what to ask for asks for something. -/
theorem requests_ne_nil {s : Step} {directory : Option Path} {results : Results}
    {requests : List Request} (h : s.requests directory results = .ok requests) :
    requests ≠ [] := by
  obtain ⟨⟨resolved, hresolved⟩, hitems⟩ := requests_ok h
  cases hloop : s.loop with
  | none =>
    rw [requests_of_single hloop, hresolved] at h
    obtain rfl := Except.ok.inj h
    exact List.cons_ne_nil _ _
  | some loop =>
    obtain ⟨items, hitems⟩ := hitems loop hloop
    rw [requests_of_loop hloop, Loop.expand_of_ok hitems hresolved] at h
    obtain rfl := Except.ok.inj h
    -- A loop has items, and there is a request for each.
    obtain ⟨item, rest, rfl⟩ := List.exists_cons_of_ne_nil (Loop.discover_ne_nil hitems)
    exact List.cons_ne_nil _ _

/-- An entry of the results says what a step has captured: a text that is not blank, under the name
of the step's output and in its format. -/
def Captures (s : Step) (entry : String × Outputs) : Prop :=
  entry.1 = s.name ∧ ∃ text, Text.isBlank text = false ∧
    entry.2 = [(s.outputName, ⟨text, s.outputFormat⟩)]

/-- A step that comes to its end has captured a text. -/
theorem captures_of_perform {s : Step} {registry : Registry σ} {admitted : Request → Bool}
    {directory : Option Path} {results : Results} {world : σ} {execution : Execution}
    (h : (s.perform registry admitted directory results world).outcome = .ok execution) :
    s.Captures (s.name, execution.outputs) := by
  cases hrequests : s.requests directory results with
  | error stop => rw [perform_of_error hrequests] at h; cases h
  | ok requests =>
    rw [perform_of_ok hrequests] at h
    cases hserve : (registry.serve admitted requests world).outcome with
    | error stop => simp [Service.map, hserve, Except.map] at h
    | ok texts =>
      simp only [Service.map, hserve, Except.map, Except.ok.injEq] at h
      have hlength : texts.length = requests.length := Registry.length_of_serve hserve
      have hne : texts ≠ [] := fun hnil => requests_ne_nil hrequests <|
        List.length_eq_zero_iff.mp (by rw [← hlength, hnil, List.length_nil])
      obtain ⟨text, rest, rfl⟩ := List.exists_cons_of_ne_nil hne
      have hblank := Registry.not_isBlank_of_serve hserve text List.mem_cons_self
      exact ⟨rfl, _, Text.not_isBlank_join List.mem_cons_self hblank, by rw [← h]; rfl⟩

end Step

namespace Workflow

variable {w : Workflow} {registry : Registry σ} {world : σ} {before after : List Step}
  {state : RunState σ}

/-- The results of a run list what the enabled steps have captured that have had their turn. -/
theorem Reaches.captures (h : w.Reaches registry world before state after) :
    List.Forall₂ Step.Captures (before.filter Step.enabled) state.results := by
  induction h with
  | start => exact .nil
  | @next before state step after hreached hstop ih =>
    rw [List.filter_append]
    rcases turn_goes_on registry w.baseDirectory state step after hreached.stop_eq hstop with
      ⟨henabled, hturn, -⟩ | ⟨henabled, execution, houtcome, hturn, -⟩
    -- A disabled step adds nothing, and an enabled one adds the entry that it captures.
    · rw [hturn.results, List.append_nil, List.filter_cons_of_neg (by simp [henabled]),
        List.filter_nil, List.append_nil]
      exact ih
    · rw [hturn.results, List.filter_cons_of_pos henabled, List.filter_nil]
      exact List.rel_append ih (.cons (Step.captures_of_perform houtcome) .nil)

/-- The results of a run that has come to its end list what all enabled steps have captured. -/
theorem captures_of_stop_eq (h : (w.runValid registry world).stop = none) :
    List.Forall₂ Step.Captures (w.steps.filter Step.enabled)
      (w.runValid registry world).results := by
  rcases runValid_ends w registry world with
    ⟨state, hreached, hrun⟩ | ⟨before, state, step, after, stop, -, hstop, hrun⟩
  · rw [hrun]
    exact hreached.captures
  · rw [hrun] at h
    cases hstop.symm.trans h

end Workflow

/-- The names that captured texts stand under are those of the steps. -/
theorem names_of_captures {steps : List Step} {results : Results}
    (h : List.Forall₂ Step.Captures steps results) :
    results.map Prod.fst = steps.map Step.name := by
  induction h with
  | nil => rfl
  | cons hentry _ ih => rw [List.map_cons, List.map_cons, hentry.1, ih]

/-- What a step has captured is found by the name of the step and that of its output, if the names
of steps differ. -/
theorem lookup_of_captures {steps : List Step} {results : Results}
    (h : List.Forall₂ Step.Captures steps results) (hnames : (steps.map Step.name).Nodup)
    {step : Step} (hstep : step ∈ steps) :
    ∃ text, Text.isBlank text = false ∧
      ((results.lookup step.name).getD []).lookup step.outputName =
        some ⟨text, step.outputFormat⟩ := by
  obtain ⟨n, hn, rfl⟩ := List.mem_iff_getElem.mp hstep
  obtain ⟨hlength, hall⟩ := List.forall₂_iff_get.mp h
  obtain ⟨hname, text, hblank, houtputs⟩ := hall n hn (hlength ▸ hn)
  have hentry : results.get ⟨n, hlength ▸ hn⟩ =
      (steps[n].name, [(steps[n].outputName, ⟨text, steps[n].outputFormat⟩)]) :=
    Prod.ext hname houtputs
  have hmem := hentry ▸ List.get_mem results ⟨n, hlength ▸ hn⟩
  refine ⟨text, hblank, ?_⟩
  rw [lookup_of_mem (names_of_captures h ▸ hnames) hmem]
  exact List.lookup_cons_self

/-- A step that has captured something has an output to be written to the file that it names. -/
theorem Delivery.item_of_captures {steps : List Step} {results : Results}
    (h : List.Forall₂ Step.Captures steps results) (hnames : (steps.map Step.name).Nodup)
    {step : Step} (hstep : step ∈ steps) {target : String}
    (htarget : step.outputFilePath = some target) (hblank : Text.isBlank target = false) :
    ∃ captured, ((results.lookup step.name).getD []).lookup step.outputName = some captured ∧
      Item.of results step = .output target captured := by
  obtain ⟨text, htext, hlookup⟩ := lookup_of_captures h hnames hstep
  refine ⟨_, hlookup, ?_⟩
  simp only [Item.of, htarget, hblank, hlookup, htext, Bool.false_eq_true, if_false]

end Runbook
