import Runbook.Proofs.Delivery.Accounting
import Runbook.Proofs.Delivery.Content
import Runbook.Proofs.Document.File

/-!
# What becomes of a declared format

A document may declare the format of a step's output, and the output may have a name or none. The
format is read with the output. It counts for what is captured of the step and for the file that
this is delivered to if the output has a name. The format of an output without a name is lost: what
is captured counts as text and is delivered as it is.

The module introduces:

* `Document.DeclaresFormat`: what a document declares of the output of a step;
* `Workflow.Honours`: what a run and the deliveries after it have to do by a format.

The main result is `Document.loaded_honours`.
-/

namespace Runbook

variable {σ : Type}

/-! ## Formats of steps -/

namespace Step

variable {step : Step} {output : Output}

/-- The format of an output with a name counts. -/
theorem outputFormat_of_named (h : step.output = some output) (hname : output.name ≠ "") :
    step.outputFormat = output.format := by
  have hempty : output.name.isEmpty = false :=
    Bool.eq_false_iff.mpr (mt String.isEmpty_iff.mp hname)
  rw [outputFormat, effectiveOutput, h]
  simp only [hempty, Bool.false_eq_true, if_false]

/-- The format of an output without a name does not. -/
theorem outputFormat_of_unnamed (h : step.output = some output) (hname : output.name = "") :
    step.outputFormat = "text" := by
  have hempty : output.name.isEmpty = true := String.isEmpty_iff.mpr hname
  rw [outputFormat, effectiveOutput, h]
  simp only [hempty, if_true]
  rfl

end Step

/-! ## Formats of captured texts -/

/-- What is captured stands in the name of a step. -/
theorem exists_of_captures {steps : List Step} {results : Results}
    (h : List.Forall₂ Step.Captures steps results) {entry : String × Outputs}
    (hentry : entry ∈ results) : ∃ step ∈ steps, step.Captures entry := by
  induction h with
  | nil => cases hentry
  | @cons step _ _ _ hcaptures _ ih =>
    rcases List.mem_cons.mp hentry with rfl | hentry
    · exact ⟨step, List.mem_cons_self, hcaptures⟩
    · obtain ⟨found, hfound, hcaptures⟩ := ih hentry
      exact ⟨found, List.mem_cons_of_mem _ hfound, hcaptures⟩

namespace Workflow

variable {w : Workflow} {registry : Registry σ} {world : σ} {step : Step}

/-- What a run captures of a step has the step's format. -/
theorem format_of_mem_results (hnames : (w.steps.map Step.name).Nodup) (hstep : step ∈ w.steps)
    {entry : String × Outputs} (hentry : entry ∈ (w.runValid registry world).results)
    (hname : entry.1 = step.name) {output : String × Captured} (houtput : output ∈ entry.2) :
    output.2.format = step.outputFormat := by
  obtain ⟨before, after, hsteps, hcaptures⟩ := w.exists_captures registry world
  obtain ⟨found, hfound, hfoundName, text, -, houtputs⟩ := exists_of_captures hcaptures hentry
  -- The entry is that of a step of this name, and there is only one.
  have hmem : found ∈ w.steps :=
    hsteps ▸ List.mem_append_left after (List.mem_filter.mp hfound).1
  obtain rfl : found = step :=
    List.inj_on_of_nodup_map hnames hmem hstep (hfoundName.symm.trans hname)
  rw [houtputs] at houtput
  rw [List.mem_singleton.mp houtput]

end Workflow

namespace Delivery

/-- What is to be delivered of a step is what was captured of it. -/
theorem mem_results_of_item {results : Results} {step : Step} {target : String}
    {captured : Captured} (h : Item.of results step = .output target captured) :
    ∃ entry ∈ results, entry.1 = step.name ∧ (step.outputName, captured) ∈ entry.2 := by
  unfold Item.of at h
  split at h
  case h_1 => cases h
  case h_2 =>
    split at h
    case isTrue => cases h
    case isFalse =>
      cases hentry : results.lookup step.name with
      | none => rw [hentry] at h; cases h
      | some outputs =>
        rw [hentry, Option.getD_some] at h
        cases houtput : outputs.lookup step.outputName with
        | none => rw [houtput] at h; cases h
        | some found =>
          rw [houtput] at h
          dsimp only at h
          split at h
          case isTrue => cases h
          case isFalse =>
            obtain ⟨-, rfl⟩ := Item.output.inj h
            exact ⟨_, mem_of_lookup hentry, rfl, mem_of_lookup houtput⟩

/-- The content of the file for a text of a format: JSON values are gathered, and everything else is
written as it is. -/
def contentAs (format text : String) : String :=
  if format.toLower = "json" then
    match Json.parseMany text with
    | .ok values => jsonContent values
    | .error _ => textContent text
  else textContent text

/-- A text that was captured in the format of its step is delivered as the format asks for. -/
theorem render_eq_contentAs {step : Step} {captured : Captured}
    (h : captured.format = step.outputFormat) :
    render step captured = contentAs step.outputFormat captured.value := by
  have hwants : wantsJson step captured = isJsonFormat step.outputFormat := by
    rw [wantsJson, Captured.isJson, h, Bool.or_self]
  unfold render contentAs
  rw [hwants]
  by_cases hjson : step.outputFormat.toLower = "json"
  · have hwanted := (isJsonFormat_iff _).mpr hjson
    cases Json.parseMany captured.value <;> simp only [hwanted, hjson, if_true]
  · rw [if_neg hjson, if_neg (mt (isJsonFormat_iff _).mp hjson)]

end Delivery

/-! ## Formats that are honoured -/

namespace Workflow

/-- A run of a workflow and the deliveries after it honour a format of a step. -/
structure Honours (w : Workflow) (run : Run σ) (step : Step) (format : String) : Prop where
  /-- What the run has captured of the step has the format. -/
  results : ∀ entry ∈ run.results, entry.1 = step.name →
    ∀ output ∈ entry.2, output.2.format = format
  /-- So has what the record of the step holds. -/
  records : ∀ r ∈ run.summary.steps, r.name = step.name → r.status = .captured →
    ∀ output ∈ r.outputs, output.2.format = format
  /-- A delivery that comes to its end has an entry for the step in its report, if the step was
  captured and names a file. -/
  reported : ∀ tree, (Delivery.deliver w run.results tree).2 = none →
    run.hasCaptured step = true → step.namesFile = true →
    ∃ target captured, Delivery.Item.of run.results step = .output target captured ∧
      ((Delivery.displayPath tree w.baseDirectory (w.destination target)).text ∈
          (Delivery.deliver w run.results tree).1.report.written ∨
        ∃ failure ∈ (Delivery.deliver w run.results tree).1.report.failures,
          failure.step = step.name)
  /-- What is to be delivered of the step is what was captured of it, as the format asks for. -/
  content : ∀ target captured, Delivery.Item.of run.results step = .output target captured →
    (∃ entry ∈ run.results, entry.1 = step.name ∧ (step.outputName, captured) ∈ entry.2) ∧
      Delivery.render step captured = Delivery.contentAs format captured.value
  /-- At the turn of the step in a delivery, if a file is reported as written, the file of the step
  holds that. -/
  written : ∀ p : Delivery.Progress,
    (Delivery.deliverStep w run.results step p).1.report.written ≠ p.report.written →
    ∃ target captured, Delivery.Item.of run.results step = .output target captured ∧
      (Delivery.deliverStep w run.results step p).1.tree.read (w.destination target) =
        .ok (Text.Utf8.encode (Delivery.contentAs format captured.value))
  /-- The file holds it in the end, unless a later step has opened the same file. -/
  kept : ∀ tree before a after,
    Delivery.attempts w run.results w.steps tree = before ++ a :: after → a.step = step →
    a.isWritten = true →
    (∀ b ∈ after, b.left ≠ none → tree.placeOf b.path ≠ tree.placeOf a.path) →
    (Delivery.deliver w run.results tree).1.tree.content? (tree.placeOf a.path) =
      some (Text.Utf8.encode (Delivery.contentAs format a.captured.value))

/-- Every step's own format is honoured. -/
theorem honours_outputFormat {w : Workflow} (hnames : (w.steps.map Step.name).Nodup) {step : Step}
    (hstep : step ∈ w.steps) (registry : Registry σ) (world : σ) :
    w.Honours (w.runValid registry world) step step.outputFormat := by
  have hresults : ∀ entry ∈ (w.runValid registry world).results, entry.1 = step.name →
      ∀ output ∈ entry.2, output.2.format = step.outputFormat :=
    fun entry hentry hname output houtput => format_of_mem_results hnames hstep hentry hname houtput
  have hdelivers (tree : FileTree) := Delivery.deliverSteps_delivers w
    (w.runValid registry world).results w.steps { tree := tree }
  have hcontent : ∀ target captured,
      Delivery.Item.of (w.runValid registry world).results step = .output target captured →
      (∃ entry ∈ (w.runValid registry world).results, entry.1 = step.name ∧
        (step.outputName, captured) ∈ entry.2) ∧
      Delivery.render step captured = Delivery.contentAs step.outputFormat captured.value := by
    intro target captured hitem
    obtain ⟨entry, hentry, hname, houtput⟩ := Delivery.mem_results_of_item hitem
    exact ⟨⟨entry, hentry, hname, houtput⟩,
      Delivery.render_eq_contentAs (hresults entry hentry hname _ houtput)⟩
  refine ⟨hresults, ?_, ?_, hcontent, ?_, ?_⟩
  · intro r hr hname hcaptured
    -- The record is one of those that the results come from.
    refine hresults (r.name, r.outputs) ?_ hname
    rw [runValid_results]
    exact List.mem_map_of_mem (List.mem_filter.mpr ⟨hr, beq_iff_eq.mpr hcaptured⟩)
  · intro tree hend hcaptured hfile
    have hdue : step ∈ w.steps.filter (Delivery.hasOutput (w.runValid registry world).results) := by
      refine List.mem_filter.mpr ⟨hstep, ?_⟩
      rw [hasOutput_eq hnames hstep, hcaptured, hfile]
      rfl
    rw [← (hdelivers tree).attempted_steps hend] at hdue
    obtain ⟨a, ha, rfl⟩ := List.mem_map.mp hdue
    obtain ⟨-, target, hitem, hpath⟩ := (hdelivers tree).of_mem ha
    refine ⟨target, a.captured, hitem, ?_⟩
    rw [← hpath]
    exact (hdelivers tree).mem_report hend ha
  · intro p hreported
    obtain ⟨target, captured, hitem, hread⟩ := Delivery.read_of_deliverStep hreported
    rw [(hcontent target captured hitem).2] at hread
    exact ⟨target, captured, hitem, hread⟩
  · rintro tree before a after hsplit rfl hwritten hlast
    have ha : a ∈ Delivery.attempts w (w.runValid registry world).results w.steps tree :=
      hsplit ▸ List.mem_append_right _ List.mem_cons_self
    obtain ⟨-, target, hitem, -⟩ := (hdelivers tree).of_mem ha
    rw [← (hcontent target a.captured hitem).2]
    refine FileTree.content?_eq_some_iff.mpr ((hdelivers tree).changed.file ?_)
    change Delivery.lastLeft tree _ _ = _
    rw [hsplit]
    exact Delivery.lastLeft_of_split (((hdelivers tree).ends ha).left_of_isWritten hwritten) hlast

end Workflow

/-! ## Formats that documents declare -/

namespace Document

/-- A document declares an output of the step at a position, with a format that is not empty and
perhaps with a name. -/
inductive DeclaresFormat (document : Value) (index : Nat) (name : Option String)
    (format : String) : Prop
  | mk {top : Entries} {documents : List Value} {entries inner : Entries}
      (hdocument : document = .map top) (hsteps : field top stepsField = .list documents)
      (hstep : documents[index]? = some (.map entries))
      (houtput : field entries "Output" = .map inner)
      (hname : SaysOptional (field inner "Name") name)
      (hformat : (field inner "Format").text? = some format) (hne : format ≠ "")

/-- An output whose format is not empty is read as it is declared; a missing name is empty. -/
theorem SaysOutput.eq_some {inner : Entries} {output : Option Output} {name : Option String}
    {format : String} (h : SaysOutput (.map inner) output)
    (hname : SaysOptional (field inner "Name") name)
    (hformat : (field inner "Format").text? = some format) (hne : format ≠ "") :
    output = some ⟨name.getD "", format⟩ := by
  cases h with
  | declared hname' hformat' =>
    obtain ⟨-, rfl⟩ := saysOptional_iff.mp hname
    obtain ⟨-, rfl⟩ := saysOptional_iff.mp hname'
    obtain ⟨-, rfl⟩ := saysOptional_iff.mp hformat'
    have hempty : format.isEmpty = false := Bool.eq_false_iff.mpr (mt String.isEmpty_iff.mp hne)
    rw [hformat, Option.filter_some, hempty]
    rfl

/-- The step that a document says has the output that the document declares. -/
theorem DeclaresFormat.step {document : Value} {index : Nat} {name : Option String}
    {format : String} (h : DeclaresFormat document index name format) {w : Workflow}
    (hdefines : Defines document w) :
    ∃ step, w.steps[index]? = some step ∧ step.output = some ⟨name.getD "", format⟩ := by
  obtain ⟨rfl, hdocuments, hstep, houtput, hname, hformat, hne⟩ := h
  obtain ⟨hdocuments', -, hsaid, -⟩ := hdefines
  obtain rfl := Value.list.inj (hdocuments.symm.trans hdocuments')
  obtain ⟨hindex, hentries⟩ := List.getElem?_eq_some_iff.mp hstep
  obtain ⟨hlength, hall⟩ := List.forall₂_iff_get.mp hsaid
  have hindex' := hlength ▸ hindex
  have hsays := hall index hindex hindex'
  rw [List.get_eq_getElem, List.get_eq_getElem, hentries] at hsays
  refine ⟨_, List.getElem?_eq_getElem hindex', ?_⟩
  cases hsays with
  | step hsays =>
    have hsaysOutput := hsays.output
    rw [houtput] at hsaysOutput
    exact hsaysOutput.eq_some hname hformat hne

/-- A declared format is honoured if the output has a name. In every run of the workflow that a
document makes, what is captured of the step has the format that the document declares, and it is
delivered as that format asks for. Where the output has no name it is so with the format of texts,
whatever format is declared. -/
theorem loaded_honours {document : Value} {path : Option Path} {w : Workflow} {index : Nat}
    {name : Option String} {format : String}
    (hloaded : (toWorkflow document path).outcome = .ok w)
    (hdeclares : DeclaresFormat document index name format) (registry : Registry σ) (world : σ) :
    ∃ step run, w.steps[index]? = some step ∧ step.output = some ⟨name.getD "", format⟩ ∧
      w.run registry world = .ok run ∧ (name.getD "" ≠ "" → w.Honours run step format) ∧
      (name.getD "" = "" → w.Honours run step "text") := by
  have hvalid := validate_of_toWorkflow hloaded
  -- The workflow is the one that the document says, and it keeps the path.
  rw [toWorkflow_eq_define, define_outcome] at hloaded
  obtain ⟨defined, houtcome, rfl⟩ : ∃ defined, (define document none).outcome = .ok defined ∧
      { defined with sourcePath := path } = w := by
    cases houtcome : (define document none).outcome with
    | error e => rw [houtcome] at hloaded; cases hloaded
    | ok defined =>
      rw [houtcome] at hloaded
      exact ⟨defined, rfl, Except.ok.inj hloaded⟩
  have hdefines := (toWorkflow_eq_ok_iff.mp ((toWorkflow_eq_define _ _).trans houtcome)).1
  obtain ⟨step, hstep, houtput⟩ := hdeclares.step hdefines
  have hhonours := Workflow.honours_outputFormat (Workflow.nodup_names hvalid)
    (List.mem_of_getElem? hstep) registry world
  refine ⟨step, _, hstep, houtput, Workflow.run_of_validate hvalid registry world, ?_, ?_⟩
  · intro hnamed
    rwa [Step.outputFormat_of_named houtput hnamed] at hhonours
  · intro hunnamed
    rwa [Step.outputFormat_of_unnamed houtput hunnamed] at hhonours

/-- A document of two steps that declare JSON, the first for an output with a name. -/
def formatDocument : Value :=
  .map [(.text "Steps", .list [
    .map [(.text "Name", .text "first"), (.text "Type", .text "scan"),
      (.text "Enabled", .bool true),
      (.text "Output", .map [(.text "Name", .text "Out"), (.text "Format", .text "JSON")]),
      (.text "output_file_path", .text "first.json")],
    .map [(.text "Name", .text "second"), (.text "Type", .text "scan"),
      (.text "Enabled", .bool true), (.text "Output", .map [(.text "Format", .text "json")]),
      (.text "output_file_path", .text "second.json")]])]

/-- The workflow that the document makes. -/
def formatWorkflow : Workflow :=
  { steps := [
      { name := "first", type := "scan", enabled := true, output := some ⟨"Out", "JSON"⟩,
        outputFilePath := some "first.json" },
      { name := "second", type := "scan", enabled := true, output := some ⟨"", "json"⟩,
        outputFilePath := some "second.json" }] }

/-- An operation that answers with JSON. -/
def scanRegistry : Registry Nat :=
  { operations := [("scan", fun _ _ calls => (.ok (.text "\x7b\"n\": 1\x7d"), calls + 1))] }

/-- Both steps declare JSON and capture the same text, and only for the first the format counts. -/
theorem loaded_honours_unnamed :
    (toWorkflow formatDocument none).outcome = .ok formatWorkflow ∧
      DeclaresFormat formatDocument 0 (some "Out") "JSON" ∧
      DeclaresFormat formatDocument 1 none "json" ∧
      ∃ first second run, formatWorkflow.steps = [first, second] ∧
        formatWorkflow.run scanRegistry 0 = .ok run ∧
        run.results = [("first", [("Out", ⟨"\x7b\"n\": 1\x7d", "JSON"⟩)]),
          ("second", [("Result", ⟨"\x7b\"n\": 1\x7d", "text"⟩)])] ∧
        formatWorkflow.Honours run first "JSON" ∧ formatWorkflow.Honours run second "text" := by
  have hloaded : (toWorkflow formatDocument none).outcome = .ok formatWorkflow := by
    refine toWorkflow_eq_ok_iff.mpr ⟨.workflow rfl (List.cons_ne_nil _ _) ?_ (by decide), rfl⟩
    exact (forall₂_says_iff 0).mpr ⟨by decide +kernel, rfl⟩
  have hfirst : DeclaresFormat formatDocument 0 (some "Out") "JSON" :=
    ⟨rfl, rfl, rfl, rfl, .text rfl, rfl, by decide⟩
  have hsecond : DeclaresFormat formatDocument 1 none "json" :=
    ⟨rfl, rfl, rfl, rfl, .absent, rfl, by decide⟩
  obtain ⟨first, run, hstep, -, hrun, hnamed, -⟩ := loaded_honours hloaded hfirst scanRegistry 0
  obtain ⟨second, run', hstep', -, hrun', -, hunnamed⟩ :=
    loaded_honours hloaded hsecond scanRegistry 0
  obtain rfl := Except.ok.inj (hrun.symm.trans hrun')
  obtain rfl := Option.some.inj hstep
  obtain rfl := Option.some.inj hstep'
  refine ⟨hloaded, hfirst, hsecond, _, _, run, rfl, hrun, ?_, hnamed (by decide), hunnamed rfl⟩
  obtain ⟨-, rfl⟩ := Workflow.run_eq_ok_iff.mp hrun
  decide +kernel

end Document

end Runbook
