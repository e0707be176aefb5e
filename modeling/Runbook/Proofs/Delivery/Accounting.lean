import Mathlib.Data.List.Nodup
import Runbook.Proofs.Delivery.Attempt
import Runbook.Proofs.Run.Captured

/-!
# Accounting for what a run has captured

What a run captures is delivered, however the run has ended. A delivery that comes to its end has
one entry in its report for every captured step that names a file, and no other entries: the step is
among the failures, or its file is among those that were written. Both lists follow the order of the
steps.

The module introduces:

* `Run.hasCaptured`: a step whose output a run has captured;
* `Workflow.due`: the steps whose outputs are to be delivered after a run;
* `Delivery.Accounts`: a report that accounts for a run.

The main result is `Delivery.deliver_accounts`.
-/

namespace Runbook

variable {σ : Type}

/-- Whether a run has captured the output of a step. -/
def Run.hasCaptured (run : Run σ) (step : Step) : Bool :=
  run.summary.steps.any fun r => r.name == step.name && r.status == .captured

/-- Whether a step names a file for its output. -/
def Step.namesFile (s : Step) : Bool :=
  s.outputFilePath.any fun target => !Text.isBlank target

/-- The steps whose outputs are to be delivered after a run. -/
def Workflow.due (w : Workflow) (run : Run σ) : List Step :=
  w.steps.filter fun step => run.hasCaptured step && step.namesFile

/-! ## What has been captured -/

namespace Workflow

variable {w : Workflow} {registry : Registry σ} {world : σ} {step : Step}

/-- However a run has ended, its results list what the first of the steps have captured. -/
theorem exists_captures (w : Workflow) (registry : Registry σ) (world : σ) :
    ∃ before after, w.steps = before ++ after ∧
      List.Forall₂ Step.Captures (before.filter Step.enabled)
        (w.runValid registry world).results := by
  rcases runValid_ends w registry world with
    ⟨state, hreached, hrun⟩ | ⟨before, state, step, after, stop, hreached, hstop, hrun⟩
  · refine ⟨w.steps, [], (List.append_nil _).symm, ?_⟩
    rw [hrun]
    exact hreached.captures
  · refine ⟨before, step :: after, hreached.steps_eq, ?_⟩
    rw [hrun, (hreached.settled.results_stopped hreached hstop).1]
    exact hreached.captures

/-- A step has been captured just if there is an entry for it. -/
theorem hasCaptured_iff :
    (w.runValid registry world).hasCaptured step = true ↔
      step.name ∈ (w.runValid registry world).results.map Prod.fst := by
  -- The entries are those of the captured records.
  rw [runValid_results, capturedIn, Run.hasCaptured, List.any_eq_true, List.map_map, List.mem_map]
  simp only [List.mem_filter, Bool.and_eq_true, beq_iff_eq, Function.comp_apply]
  exact exists_congr fun r => by rw [and_comm (a := r.name = step.name), and_assoc]

/-- A text that is not blank is found for a captured step where a delivery looks for it. -/
theorem lookup_of_hasCaptured (hnames : (w.steps.map Step.name).Nodup) (hstep : step ∈ w.steps)
    (h : (w.runValid registry world).hasCaptured step = true) :
    ∃ text, Text.isBlank text = false ∧
      (((w.runValid registry world).results.lookup step.name).getD []).lookup step.outputName =
        some ⟨text, step.outputFormat⟩ := by
  obtain ⟨before, after, hsteps, hcaptures⟩ := w.exists_captures registry world
  have hsub : (before.filter Step.enabled).Sublist w.steps :=
    hsteps ▸ List.filter_sublist.trans (List.sublist_append_left before after)
  -- The entry is that of a step of this name, and there is only one.
  obtain ⟨found, hfound, hname⟩ :=
    List.mem_map.mp (names_of_captures hcaptures ▸ hasCaptured_iff.mp h)
  obtain rfl : found = step :=
    List.inj_on_of_nodup_map hnames (hsub.subset hfound) hstep hname
  exact lookup_of_captures hcaptures (hnames.sublist (hsub.map Step.name)) hfound

/-- There is an output to be written just of those steps that are due. -/
theorem hasOutput_eq (hnames : (w.steps.map Step.name).Nodup) (hstep : step ∈ w.steps) :
    Delivery.hasOutput (w.runValid registry world).results step =
      ((w.runValid registry world).hasCaptured step && step.namesFile) := by
  unfold Delivery.hasOutput Delivery.Item.of Step.namesFile
  cases step.outputFilePath with
  | none => simp
  | some target =>
    -- Where a file is named, all depends on whether there is an entry for the step.
    cases htarget : Text.isBlank target with
    | true => simp [htarget]
    | false =>
      cases hcaptured : (w.runValid registry world).hasCaptured step with
      | true =>
        obtain ⟨text, hblank, hlookup⟩ := lookup_of_hasCaptured hnames hstep hcaptured
        simp [htarget, hlookup, hblank]
      | false =>
        have hnone : (w.runValid registry world).results.lookup step.name = none := by
          refine List.lookup_eq_none_iff.mpr fun entry hentry => bne_iff_ne.mpr fun hname => ?_
          have hmem : (w.runValid registry world).hasCaptured step = true :=
            hasCaptured_iff.mpr (List.mem_map.mpr ⟨entry, hentry, hname.symm⟩)
          cases hcaptured.symm.trans hmem
        simp [htarget, hnone]

end Workflow

namespace Delivery

/-! ## The report -/

/-- Whether the report has a failure of a step. -/
def Report.fails (report : Report) (step : Step) : Bool :=
  report.failures.any fun failure => failure.step == step.name

/-- The path of the file that a step names, as it is shown. -/
def shownFile (w : Workflow) (tree : FileTree) (step : Step) : String :=
  (displayPath tree w.baseDirectory (w.destination (step.outputFilePath.getD ""))).text

/-- A report accounts for a run: for what it has captured, and for nothing else. -/
structure Accounts (w : Workflow) (run : Run σ) (tree : FileTree) (report : Report) : Prop where
  /-- The failures are those of steps that are due, one of each and in their order. -/
  failures : report.failures.map Failure.step =
    ((w.due run).filter report.fails).map Step.name
  /-- The files that were written are those of all other steps that are due, one of each and in
  their order. -/
  written : report.written =
    ((w.due run).filter fun step => !report.fails step).map (shownFile w tree)
  /-- The name of a step stands for that step alone. -/
  names : ((w.due run).map Step.name).Nodup
  /-- What has been captured of a step is not blank, and it is found under the names of the step and
  of its output, in the format that the step declares. -/
  captured : ∀ step ∈ w.steps, run.hasCaptured step = true →
    ∃ text, Text.isBlank text = false ∧
      ((run.results.lookup step.name).getD []).lookup step.outputName =
        some ⟨text, step.outputFormat⟩

section Report

variable {w : Workflow} {results : Results} {steps : List Step} {tree : FileTree} {p : Progress}
  {all : List Attempt} {result : Progress × Option WriteError}

/-- An attempt is shown by the file that its step names. -/
theorem Delivers.shown_eq (h : Delivers w results steps p all result) {a : Attempt}
    (ha : a ∈ all) : a.shown w tree = shownFile w tree a.step := by
  obtain ⟨-, target, hitem, hpath⟩ := h.of_mem ha
  rw [Attempt.shown, shownFile, hpath, outputFilePath_of_item hitem]
  rfl

/-- An attempt has failed just if the report has a failure of its step. -/
theorem fails_eq {report : Report} (hnames : (all.map fun a => a.step.name).Nodup)
    (hfailures : report.failures.map Failure.step =
      (all.filter (!·.isWritten)).map fun a => a.step.name)
    {a : Attempt} (ha : a ∈ all) : report.fails a.step = !a.isWritten := by
  have hiff : report.fails a.step = true ↔
      a.step.name ∈ (all.filter (!·.isWritten)).map fun a => a.step.name := by
    rw [← hfailures, Report.fails, List.any_eq_true, List.mem_map]
    simp only [beq_iff_eq]
  rw [Bool.eq_iff_iff, hiff, List.mem_map]
  constructor
  · -- The failure of this name is that of this very attempt.
    rintro ⟨b, hb, hname⟩
    obtain ⟨hmem, hrefused⟩ := List.mem_filter.mp hb
    obtain rfl : b = a := List.inj_on_of_nodup_map hnames hmem ha hname
    exact hrefused
  · exact fun hrefused => ⟨a, List.mem_filter.mpr ⟨ha, hrefused⟩, rfl⟩

/-- Some of the attempts are attempts at some of the steps. -/
theorem filter_step {keep : Step → Bool} {kept : Attempt → Bool}
    (h : ∀ a ∈ all, keep a.step = kept a) :
    (all.map Attempt.step).filter keep = (all.filter kept).map Attempt.step := by
  rw [List.filter_map]
  exact congrArg (List.map Attempt.step) (List.filter_congr h)

end Report

/-- A delivery that comes to its end accounts for the run whose results it delivers, however that
has ended. -/
theorem deliver_accounts {w : Workflow} {registry : Registry σ} {world : σ} {run : Run σ}
    (hrun : w.run registry world = .ok run) (tree : FileTree)
    (hend : (deliver w run.results tree).2 = none) :
    Accounts w run tree (deliver w run.results tree).1.report := by
  obtain ⟨hvalid, rfl⟩ := Workflow.run_eq_ok_iff.mp hrun
  have hnames : (w.steps.map Step.name).Nodup := Workflow.nodup_names hvalid
  generalize hresults : (w.runValid registry world).results = results at hend
  have hdelivers : Delivers w results w.steps { tree := tree } (attempts w results w.steps tree)
      (deliver w results tree) := deliverSteps_delivers w results w.steps { tree := tree }
  generalize attempts w results w.steps tree = all at hdelivers
  obtain ⟨hwritten, hfailures⟩ := hdelivers.report
  -- The attempts are those at the steps that are due.
  have hdue : all.map Attempt.step = w.due (w.runValid registry world) := by
    refine (hdelivers.attempted_steps hend).trans (List.filter_congr fun step hstep => ?_)
    rw [← hresults]
    exact Workflow.hasOutput_eq hnames hstep
  have hdueNames : ((w.due (w.runValid registry world)).map Step.name).Nodup :=
    hnames.sublist (List.filter_sublist.map Step.name)
  -- Those that have failed are told apart by the names of their steps.
  have hnamed : (deliver w results tree).1.report.failures.map Failure.step =
      (all.filter (!·.isWritten)).map fun a => a.step.name :=
    (congrArg (List.map Failure.step) hfailures).trans (hdelivers.failures hend)
  have hfails : ∀ a ∈ all, (deliver w results tree).1.report.fails a.step = !a.isWritten := by
    refine fun a ha => fails_eq ?_ hnamed ha
    rwa [← hdue, List.map_map] at hdueNames
  refine ⟨?_, ?_, hdueNames, fun step hstep hcaptured =>
    Workflow.lookup_of_hasCaptured hnames hstep hcaptured⟩
  · rw [hnamed, ← hdue, filter_step hfails, List.map_map]
    rfl
  · rw [← hdue, filter_step fun a ha => congrArg (!·) (hfails a ha), List.map_map]
    simp only [Bool.not_not]
    exact hwritten.trans (List.map_congr_left fun a ha =>
      hdelivers.shown_eq (List.mem_filter.mp ha).1)

/-- A workflow whose last step fails. Of the steps before, one names a file, one is disabled, one
with a loop names a file below that of the first, and one names no file. -/
def partialWorkflow : Workflow :=
  { sourcePath := some (Path.ofText "/flows/main.json")
    steps := [
      { name := "first", type := "#echo", enabled := true, outputFilePath := some "a.txt" },
      { name := "idle", type := "#echo", outputFilePath := some "idle.txt" },
      { name := "each", type := "#echo", enabled := true, loop := some ⟨"x\ny", "item"⟩
        outputFilePath := some "a.txt/b" },
      { name := "quiet", type := "#echo", enabled := true, outputFilePath := some " " },
      { name := "last", type := "#halt", enabled := true, outputFilePath := some "last.txt" }] }

/-- The run of the workflow. -/
def partialRun : Run Nat :=
  partialWorkflow.runValid Workflow.haltingRegistry 0

/-- The run fails, and the report accounts for the two steps that have been captured and name a
file. -/
theorem deliver_accounts_partial :
    partialWorkflow.run Workflow.haltingRegistry 0 = .ok partialRun ∧
      partialRun.summary.status = .failed ∧
      (partialWorkflow.due partialRun).map Step.name = ["first", "each"] ∧
      (deliver partialWorkflow partialRun.results (.ofCurrent ["flows"])).2 = none ∧
      (deliver partialWorkflow partialRun.results (.ofCurrent ["flows"])).1.report.written =
        ["a.txt"] ∧
      Accounts partialWorkflow partialRun (.ofCurrent ["flows"])
        (deliver partialWorkflow partialRun.results (.ofCurrent ["flows"])).1.report := by
  have hrun : partialWorkflow.run Workflow.haltingRegistry 0 = .ok partialRun :=
    Workflow.run_of_validate rfl _ _
  have hend : (deliver partialWorkflow partialRun.results (.ofCurrent ["flows"])).2 = none := by
    decide +kernel
  refine ⟨hrun, by decide +kernel, by decide +kernel, hend, by decide +kernel, ?_⟩
  exact deliver_accounts hrun (.ofCurrent ["flows"]) hend

end Delivery

end Runbook
