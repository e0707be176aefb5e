import Runbook.CommandLine.Command
import Runbook.CommandLine.Outcome
import Runbook.Delivery.Write
import Runbook.Json.Printer
import Runbook.Run.Engine

/-!
# Carrying out commands

Checking a document lists its steps. Running it loads the modules of operations, runs the workflow,
delivers the outputs and shows the summary. A workflow with problems leads to exit code 2, a run or
a delivery that fails to exit code 1.
-/

namespace Runbook.CommandLine

variable {σ : Type}

/-- The line that lists a step. -/
def stepLine (s : Step) : String :=
  let state := if s.enabled then "enabled" else "disabled"
  let loop := match s.loop with
    | some loop => s!", loop over {loop.inputData} as {loop.itemName}"
    | none => ""
  s!"{s.name}: {s.operationName} ({state}{loop})\n"

/-- What is logged of problems. -/
def problemLog (problems : List Problem) : Log :=
  problems.flatMap fun p => Log.error s!"Validation error: {p.message}"

/-- Goes on with the path of a document if a file or directory is there; `refuse` says what is done
about trouble. -/
def withDocument (o : Outcome σ) (refuse : Outcome σ → Trouble → Outcome σ) (workflow : String)
    (next : Outcome σ → Path → Outcome σ) : Outcome σ :=
  let path := Path.ofText workflow
  if path.holdsNull then refuse o (.file .nullCharacter)
  else
    let path := o.tree.resolve path
    match o.tree.present path with
    | .error e => refuse o (.file e)
    | .ok false => o.fail s!"Workflow file not found: {path.text}" 1
    | .ok true => next o path

/-- Goes on with the workflow of a document unless it has problems. -/
def withWorkflow (o : Outcome σ) (refuse : Outcome σ → Trouble → Outcome σ) (path : Path)
    (next : Outcome σ → Workflow → Outcome σ) : Outcome σ :=
  let loading := Document.loadFile o.tree path
  let o := o.report loading.log
  match loading.outcome with
  | .ok w => next o w
  | .error (.invalid problems) =>
    (o.report (problemLog problems)).exit Problem.combinedExitCode
  | .error e => refuse o (.load e)

/-- Checks a document and lists the steps of its workflow. Trouble escapes. -/
def validate (o : Outcome σ) (workflow : String) : Outcome σ :=
  withDocument o Outcome.escape workflow fun o path =>
    withWorkflow o Outcome.escape path fun o w =>
      { o with shown := o.shown ++ String.join (w.steps.map stepLine) }

/-- The text of a summary in a layout, unless it is hidden. -/
def SummaryLayout.text? (layout : SummaryLayout) (summary : Summary) : Option String :=
  match layout with
  | .hidden => none
  | .json => some (summary.toJson.render (some 2))
  | .markdown => some summary.toMarkdown

/-- Shows a summary or writes it to the file that the options name, and tells of the trouble with
that. -/
def showSummary (options : Options) (summary : Summary) (o : Outcome σ) :
    Outcome σ × Option Trouble :=
  match options.summary.text? summary, options.summaryFile.filter (!·.isEmpty) with
  | none, _ => (o, none)
  | some content, none => ({ o with shown := o.shown ++ content ++ "\n" }, none)
  | some content, some name =>
    let path := Path.ofText name
    match o.tree.deliverText path (content ++ "\n") with
    | (tree, some e) => ({ o with tree := tree }, some (.file e))
    | (tree, none) =>
      ({ o with tree := tree }.report (Log.info s!"Summary written to {path.text}"), none)

/-- Shows a summary and goes on unless there is trouble with that. -/
def withSummary (options : Options) (summary : Summary) (o : Outcome σ)
    (next : Outcome σ → Outcome σ) : Outcome σ :=
  match showSummary options summary o with
  | (o, some trouble) => o.announce trouble
  | (o, none) => next o

/-- Delivers the outputs of a run that has completed and shows its summary. -/
def finish (options : Options) (w : Workflow) (run : Run σ) (o : Outcome σ) : Outcome σ :=
  if options.write then
    match Delivery.deliver w run.results o.tree with
    | (p, some _) => { o with tree := p.tree }.report p.log |>.announce (.file .nullCharacter)
    | (p, none) =>
      let written := p.report.written.flatMap fun path =>
        Log.info s!"Combined output written: {path}"
      let o := { o with tree := p.tree }.report (p.log ++ written)
      withSummary options { run.summary with filesWritten := p.report.written } o fun o =>
        o.exit (if p.report.isOk then 0 else 1)
  else withSummary options run.summary o fun o => o.exit 0

/-- Runs a workflow with the operations of modules. -/
def execute (catalogue : Catalogue σ) (options : Options) (w : Workflow) (o : Outcome σ) :
    Outcome σ :=
  let (registry, log, e?) := catalogue.loadAll {} options.modules
  let o := o.report log
  match e? with
  | some e => o.announce (.catalogue e)
  | none =>
    match w.run registry o.world with
    | .error problems => o.announce (.load (.invalid problems))
    | .ok run =>
      let o := { o with world := run.world, calls := o.calls ++ run.calls }.report run.log
      match run.stop with
      | some (.broken fault) => o.announce (.integer fault)
      -- A failed run delivers nothing, but its summary is shown.
      | some (.failed failure) =>
        withSummary options run.summary o fun o =>
          o.fail s!"Workflow run failed: {failure.message}" 1
      | none => finish options w run o

/-- Runs the workflow of a document. Trouble is announced. -/
def run (catalogue : Catalogue σ) (options : Options) (workflow : String) (o : Outcome σ) :
    Outcome σ :=
  withDocument o Outcome.announce workflow fun o path =>
    withWorkflow (o.report (Log.info s!"Loading workflow: {path.text}")) Outcome.announce path
      fun o w =>
        if options.dryRun then
          (o.report (Log.info "[DRY RUN] Workflow validation successful")).exit 0
        else execute catalogue options w o

/-- Carries out a command. -/
def Command.perform (c : Command) (catalogue : Catalogue σ) (tree : FileTree) (world : σ) :
    Outcome σ :=
  let start : Outcome σ := { tree := tree, world := world }
  match c.verb with
  | .run => run catalogue c.options c.workflow start
  | .validate => validate start c.workflow

end Runbook.CommandLine
