import Mathlib.Data.List.Nodup
import Runbook.Proofs.Delivery.Attempt
import Runbook.Proofs.Path.Text
import Runbook.Proofs.Reference.Determination
import Runbook.Proofs.Run.Standing

/-!
# The file that a call is told of

A step that names a file for its output passes the path of the file to its operation. Anchored at
the directory of the workflow's document and written out as a text, that path denotes the very file
that a delivery writes the output to, although the one is put together from texts and the other from
paths.

The main results are `Workflow.ofText_anchored`, `Step.outputPath_of_request` and, for all calls of
a run, `Workflow.outputPath_denotes`.
-/

namespace Runbook

/-! ## Parameters -/

namespace Parameters

/-- Whether a name is there depends on the keys alone. -/
theorem has_congr {p q : Parameters} (h : p.map Prod.fst = q.map Prod.fst) (name : String) :
    p.has name = q.has name := by
  have hkeys (p : Parameters) :
      p.has name = (p.map Prod.fst).any fun key => key.text? == some name := by
    rw [List.any_map]
    rfl
  rw [hkeys, hkeys, h]

end Parameters

/-! ## Anchored paths -/

section Anchored

variable {directory : Path} {target : String}

/-- A path that is anchored at a directory is a text that denotes the path under the directory. -/
theorem ofText_anchorValue (hdirectory : directory.IsPlain) (hblank : Text.isBlank target = false) :
    ∃ text, anchorValue directory (.text target) = .text text ∧
      Path.ofText text = directory.under (Path.ofText target) := by
  simp only [anchorValue, anchorItem, Value.text?, hblank, Bool.false_or]
  split
  case isTrue habsolute =>
    refine ⟨target, rfl, ?_⟩
    rw [Path.under, if_pos habsolute]
  case isFalse =>
    refine ⟨_, rfl, Path.ofText_text ?_⟩
    exact hdirectory.under (Path.isPlain_ofText target)

/-- The path that parameters hold for the output denotes, once it is anchored, the file that a
delivery writes to. -/
theorem Workflow.ofText_anchored {w : Workflow} (hsource : ∀ source ∈ w.sourcePath, source.IsPlain)
    {parameters : Parameters}
    (hget : parameters.get? Loop.outputPathParameter = some (.text target))
    (hblank : Text.isBlank target = false) :
    ∃ text, (anchorPaths w.baseDirectory parameters).get? Loop.outputPathParameter =
        some (.text text) ∧ Path.ofText text = w.destination target := by
  unfold destination baseDirectory
  cases hpath : w.sourcePath with
  | none => exact ⟨target, hget, rfl⟩
  | some source =>
    have hplain : source.parent.IsPlain := (hsource source hpath).parent
    obtain ⟨text, hanchor, htext⟩ := ofText_anchorValue hplain hblank
    obtain ⟨key, hkey, hfound⟩ := Parameters.get?_map (fun key value =>
      if key.text?.any pathParameters.contains then anchorValue source.parent value else value)
      parameters Loop.outputPathParameter hget
    refine ⟨text, hfound.trans ?_, htext⟩
    rw [hkey, hanchor]
    rfl

end Anchored

/-! ## Requests and calls -/

section Calls

variable {σ : Type} {target : String}

/-- What a request says of the file that the output goes to is the path that the step names. In a
loop the parameters for an item may name another one. -/
theorem Step.outputPath_of_request {s : Step} (htarget : s.outputFilePath = some target)
    (hblank : Text.isBlank target = false)
    (hown : s.loop ≠ none → s.parameters.has Loop.outputPathParameter = false)
    {directory : Option Path} {results : Results} {requests : List Request}
    (h : s.requests directory results = .ok requests) {r : Request} (hr : r ∈ requests) :
    ∃ parameters : Parameters, parameters.get? Loop.outputPathParameter = some (.text target) ∧
      r.parameters = anchorPaths directory parameters := by
  have hput (parameters : Parameters) :
      (s.withOutputPath parameters).get? Loop.outputPathParameter = some (.text target) := by
    have hne : target.isEmpty = false := by
      refine Bool.eq_false_iff.mpr fun hempty => ?_
      rw [String.isEmpty_iff.mp hempty] at hblank
      cases hblank
    have hdeclared : s.declaredPath? = some target := by
      simp [declaredPath?, htarget, Option.filter, hne]
    rw [withOutputPath, hdeclared]
    exact Parameters.get?_put _ _ _
  cases hloop : s.loop with
  | none =>
    rw [requests_of_single hloop] at h
    cases hresolved : Substitution.inEntries results s.parameters with
    | error e => rw [hresolved] at h; cases h
    | ok resolved =>
      rw [hresolved] at h
      cases h
      obtain rfl := List.mem_singleton.mp hr
      exact ⟨_, hput resolved, rfl⟩
  | some loop =>
    obtain ⟨⟨resolved, hresolved⟩, hitems⟩ := requests_ok h
    obtain ⟨items, hitems⟩ := hitems loop hloop
    rw [requests_of_loop hloop, Loop.expand_of_ok hitems hresolved] at h
    cases h
    obtain ⟨⟨parameters, index⟩, hmem, rfl⟩ := List.mem_map.mp hr
    obtain ⟨item, -, rfl⟩ := List.mem_map.mp (List.fst_mem_of_mem_zipIdx hmem)
    -- Neither the placeholders nor the item change the keys.
    have hkeys : (loop.putItem item resolved).has Loop.outputPathParameter = false := by
      rw [Parameters.has_congr ((loop.map_fst_putItem item resolved).trans
        (Substitution.map_fst_inEntries hresolved))]
      exact hown (hloop ▸ nofun)
    refine ⟨s.withDefaultOutputPath (loop.putItem item resolved), ?_, rfl⟩
    rw [withDefaultOutputPath, hkeys]
    exact hput _

namespace Workflow

/-- A call that is made for a step is one of the requests of the step. -/
theorem CallStands.exists_request {w : Workflow} {registry : Registry σ} {world : σ}
    {before after : List Step} {state : RunState σ} {step : Step} {c : Call}
    (h : w.CallStands registry world before state step after c) :
    ∃ requests, step.requests w.baseDirectory state.results = .ok requests ∧
      ∃ r ∈ requests, c.parameters = r.parameters := by
  have hmade := h.made
  rw [calls_of_run] at hmade
  obtain ⟨r, hr, rfl⟩ := List.mem_map.mp hmade
  obtain ⟨requests, hrequests, hmem⟩ := Step.mem_requests_of_made (List.mem_filter.mp hr).1
  exact ⟨requests, hrequests, r, hmem, rfl⟩

/-- The operation and the delivery agree on the file of a step: in every call that a run makes for
the step, the path of the output denotes the destination of the file that the step names. The
delivery of the step, however far it has come, changes no other file, and that one holds the output
if a file is reported as written. The path of every attempt to deliver what the run has captured of
the step is that destination. -/
theorem outputPath_denotes {w : Workflow} {registry : Registry σ} {world : σ} {run : Run σ}
    (hrun : w.run registry world = .ok run) (hsource : ∀ source ∈ w.sourcePath, source.IsPlain)
    {step : Step} (hstep : step ∈ w.steps) (htarget : step.outputFilePath = some target)
    (hblank : Text.isBlank target = false)
    (hown : step.loop ≠ none → step.parameters.has Loop.outputPathParameter = false) :
    (∀ c ∈ run.calls, c.context.stepName = step.name →
      ∃ text, c.parameters.get? Loop.outputPathParameter = some (.text text) ∧
        Path.ofText text = w.destination target) ∧
    (∀ p : Delivery.Progress,
      (∀ place, place ≠ p.tree.placeOf (w.destination target) →
        (Delivery.deliverStep w run.results step p).1.tree.content? place =
          p.tree.content? place) ∧
      ((Delivery.deliverStep w run.results step p).1.report.written ≠ p.report.written →
        ∃ captured, Delivery.Item.of run.results step = .output target captured ∧
          (Delivery.deliverStep w run.results step p).1.tree.read (w.destination target) =
            .ok (Text.Utf8.encode (Delivery.render step captured)))) ∧
    ∀ (tree : FileTree), ∀ a ∈ Delivery.attempts w run.results w.steps tree,
      a.step.name = step.name → a.path = w.destination target := by
  obtain ⟨hvalid, rfl⟩ := run_eq_ok_iff.mp hrun
  have hsame {other : Step} (hother : other ∈ w.steps) (hname : other.name = step.name) :
      other = step :=
    List.inj_on_of_nodup_map (nodup_names hvalid) hother hstep hname
  refine ⟨?_, fun p => ⟨fun place hplace => Delivery.content?_deliverStep htarget hplace,
    fun hreported => ?_⟩, ?_⟩
  · intro c hc hname
    obtain ⟨before, state, found, after, hstands⟩ := callStands_of_mem hc
    have hfound : found ∈ w.steps := by simp [hstands.reached.steps_eq]
    obtain rfl := hsame hfound (hstands.stepName.symm.trans hname)
    obtain ⟨requests, hrequests, r, hr, hparameters⟩ := hstands.exists_request
    obtain ⟨parameters, hget, hanchored⟩ :=
      Step.outputPath_of_request htarget hblank hown hrequests hr
    rw [hparameters, hanchored]
    exact ofText_anchored hsource hget hblank
  · obtain ⟨found, captured, hitem, hread⟩ := Delivery.read_of_deliverStep hreported
    obtain rfl := Option.some.inj (htarget.symm.trans (Delivery.outputFilePath_of_item hitem))
    exact ⟨captured, hitem, hread⟩
  · intro tree a ha hname
    have hdelivers := Delivery.deliverSteps_delivers w (w.runValid registry world).results w.steps
      { tree := tree }
    obtain ⟨hmem, found, hitem, hpath⟩ := hdelivers.of_mem ha
    have hfound := Delivery.outputFilePath_of_item hitem
    rw [hsame hmem hname, htarget] at hfound
    rw [hpath, Option.some.inj hfound]

/-- A workflow of a relative document with a step that calls its operation once and one that calls
it for two items; both write to files by paths that are not in their shortest form. -/
def anchoredWorkflow : Workflow :=
  { sourcePath := some (Path.ofText "flows/main.json")
    steps := [
      { name := "once", type := "#note", enabled := true, outputFilePath := some "./out//a.txt" },
      { name := "each", type := "#note", enabled := true, loop := some ⟨"x\ny", "item"⟩,
        outputFilePath := some "../b/" }] }

/-- An operation that always returns the same text. -/
def noteRegistry : Registry Unit :=
  { operations := [("note", fun _ _ world => (.ok (.text "noted"), world))] }

/-- The calls for the items of the second step tell of the file beside the document's directory. -/
theorem outputPath_denotes_relative :
    ∃ run, anchoredWorkflow.run noteRegistry () = .ok run ∧
      (run.calls.map fun c => c.context.stepName) = ["once", "each", "each"] ∧
      ∀ c ∈ run.calls, c.context.stepName = "each" →
        ∃ text, c.parameters.get? Loop.outputPathParameter = some (.text text) ∧
          Path.ofText text = ⟨.relative, ["flows", "..", "b"]⟩ := by
  have hvalid : anchoredWorkflow.validate = .ok () := rfl
  have hrun := run_of_validate hvalid noteRegistry ()
  refine ⟨_, hrun, by decide +kernel, ?_⟩
  have hsource : ∀ source ∈ anchoredWorkflow.sourcePath, source.IsPlain := by
    rintro source ⟨⟩
    exact Path.isPlain_ofText _
  exact (outputPath_denotes hrun hsource (List.mem_cons_of_mem _ List.mem_cons_self) rfl
    (by decide) fun _ => rfl).1

end Workflow

end Calls

end Runbook
