import Runbook.Delivery.Render
import Runbook.Text.Blank
import Runbook.TextFile

/-!
# Delivering outputs to files

Every step that names a file and has captured an output has it written there. A file or directory
that the system refuses is reported, and so is a file that the storage cuts short; the steps after
it are delivered all the same.
-/

namespace Runbook.Delivery

/-- Why an output was not delivered. -/
structure Failure where
  /-- The name of the step. -/
  step : String
  /-- The path that could not be made or written. -/
  path : Path
  /-- The reason. -/
  reason : String
  deriving DecidableEq, Repr

/-- The wording of a failure. -/
def Failure.message (f : Failure) : String :=
  s!"step '{f.step}': failed to write {f.path.text}: {f.reason}"

/-- What became of the outputs of a workflow. -/
structure Report where
  /-- The files that were written, as they are shown. -/
  written : List String := []
  /-- The failures. -/
  failures : List Failure := []
  deriving DecidableEq, Repr

/-- Whether nothing failed. -/
def Report.isOk (r : Report) : Bool :=
  r.failures.isEmpty

/-- A path as it is shown: as seen from the base if it lies beneath it, else as it is. -/
def displayPath (tree : FileTree) (base : Option Path) (path : Path) : Path :=
  match base with
  | none => path
  | some base =>
    -- Such a base names nothing that could hold the path.
    if base.holdsNull then path
    else ((tree.resolve base).relativeTo? (tree.resolve path)).getD path

/-- Why a file was not written. -/
inductive WriteError where
  /-- The system refuses a path, or the storage cuts the file short. -/
  | failed (failure : Failure)
  /-- The path holds the null character, which is not reported as a failure. -/
  | nullCharacter
  deriving DecidableEq, Repr

/-- Makes the directory of a file and writes the file. -/
def writeFile (tree : FileTree) (step : String) (path : Path) (content : String) :
    FileTree × Option WriteError :=
  match tree.makeDirectories path.parent with
  | (tree, some .nullCharacter) => (tree, some .nullCharacter)
  | (tree, some e) =>
    (tree, some (.failed ⟨step, path.parent, s!"cannot create directory: {e.message}"⟩))
  | (tree, none) =>
    match tree.writeText path content with
    | .ok tree => (tree, none)
    | .error (.nullCharacter, tree) => (tree, some .nullCharacter)
    | .error (e, tree) => (tree, some (.failed ⟨step, path, e.message⟩))

/-- What is to be delivered of a step. -/
inductive Item where
  /-- Nothing: the step names no file. -/
  | undeclared
  /-- Nothing: there is no output of the step's output name. -/
  | missing
  /-- Nothing: the output is blank. -/
  | blank
  /-- The output, to the file of this name. -/
  | output (target : String) (captured : Captured)
  deriving DecidableEq, Repr

/-- What is to be delivered of a step, given what was captured. -/
def Item.of (results : Results) (step : Step) : Item :=
  match step.outputFilePath with
  | none => .undeclared
  | some target =>
    if Text.isBlank target then .undeclared
    else
      match ((results.lookup step.name).getD []).lookup step.outputName with
      | none => .missing
      | some captured => if Text.isBlank captured.value then .blank else .output target captured

/-- How far a delivery has come. -/
structure Progress where
  /-- The files. -/
  tree : FileTree
  /-- What became of the outputs so far. -/
  report : Report := {}
  /-- What was logged so far. -/
  log : Log := []

/-- Delivers the output of one step. A path with the null character ends the delivery. -/
def deliverStep (w : Workflow) (results : Results) (step : Step) (p : Progress) :
    Progress × Option WriteError :=
  match Item.of results step with
  | .undeclared => (p, none)
  | .missing =>
    let note := s!"Step '{step.name}' produced no '{step.outputName}' output; nothing to write"
    ({ p with log := p.log ++ Log.debug note }, none)
  | .blank =>
    let note := s!"Step '{step.name}' output is empty; nothing to write"
    ({ p with log := p.log ++ Log.debug note }, none)
  | .output target captured =>
    let path := w.destination target
    let log := p.log ++ renderWarnings step captured
    match writeFile p.tree step.name path (render step captured) with
    | (tree, none) =>
      let shown := (displayPath tree w.baseDirectory path).text
      ({ tree := tree
         report := { p.report with written := p.report.written ++ [shown] }
         log := log ++ Log.info s!"Wrote output of step '{step.name}' to {path.text}" }, none)
    | (tree, some (.failed failure)) =>
      ({ tree := tree
         report := { p.report with failures := p.report.failures ++ [failure] }
         log := log ++ Log.error failure.message }, none)
    | (tree, some .nullCharacter) => ({ p with tree := tree, log := log }, some .nullCharacter)

/-- Delivers the outputs of steps, one after the other. -/
def deliverSteps (w : Workflow) (results : Results) :
    List Step → Progress → Progress × Option WriteError
  | [], p => (p, none)
  | step :: steps, p =>
    match deliverStep w results step p with
    | (p, some e) => (p, some e)
    | (p, none) => deliverSteps w results steps p

/-- Delivers the outputs of a workflow. -/
def deliver (w : Workflow) (results : Results) (tree : FileTree) : Progress × Option WriteError :=
  deliverSteps w results w.steps { tree := tree }

end Runbook.Delivery
