import Runbook.Loop.Item
import Runbook.Operation.Registry
import Runbook.Run.Record
import Runbook.Value.Display

/-!
# Running a step

A step's parameters are filled in from the results so far, paths among them are anchored at the
workflow's directory, the operation is called, and what it returns is captured. A step with a loop
does so for each item and joins the texts. The first thing that goes wrong ends the step.
-/

namespace Runbook

/-- The stage of a step at which it failed. -/
inductive FailureKind where
  /-- While its parameters or its items were made out. -/
  | resolution
  /-- While its operation was called or the answer captured. -/
  | invocation
  deriving DecidableEq, Repr

/-- The name of a stage. -/
def FailureKind.name : FailureKind → String
  | .resolution => "resolution"
  | .invocation => "invocation"

/-- What made a step fail. -/
inductive Cause where
  /-- A placeholder leads nowhere. -/
  | unresolved (reason : Pointer.Unresolved)
  /-- The loop's input is an object without an array of items. -/
  | noArrayField
  /-- The loop has no items. -/
  | noItems
  /-- The call yielded no text. -/
  | call (failure : Failure)
  deriving DecidableEq, Repr

/-- The wording of a cause. -/
def Cause.message : Cause → String
  | .unresolved reason => reason.message
  | .noArrayField => Loop.Error.noArrayField.message
  | .noItems => Loop.Error.noItems.message
  | .call failure => failure.message

/-- The failure of a step. -/
structure StepFailure where
  /-- The name of the step. -/
  step : String
  /-- The stage. -/
  kind : FailureKind
  /-- The position of the item, if the step failed at one. -/
  loopIndex : Option Nat
  /-- What made the step fail. -/
  cause : Cause
  deriving DecidableEq, Repr

/-- The wording of a failure. -/
def StepFailure.message (f : StepFailure) : String :=
  match f.loopIndex with
  | none => s!"step '{f.step}': {f.cause.message}"
  | some index => s!"step '{f.step}' (loop {index}): {f.cause.message}"

/-- Why a step stops before its output is captured. -/
inductive Stop where
  /-- The step failed. -/
  | failed (failure : StepFailure)
  /-- An integer could not be read or shown, which no step answers for. -/
  | broken (fault : Number.IntegerFault)
  deriving DecidableEq, Repr

/-- The wording of a reason to stop. -/
def Stop.message : Stop → String
  | .failed failure => failure.message
  | .broken fault => fault.message

/-- A call of an operation. -/
structure Call where
  /-- The name of the operation. -/
  operation : String
  /-- The parameters. -/
  parameters : Parameters
  /-- The context. -/
  context : Context
  /-- Where the steps of the run stood, if a run is going on. -/
  statuses : Option (List Status)
  deriving Repr

/-- What steps are run with. -/
structure Setting (σ : Type) where
  /-- The operations. -/
  registry : Registry σ
  /-- The directory that relative paths start from. -/
  workflowDirectory : Option Path
  /-- Where the steps of the run stand, given the record of the current one. -/
  statuses : Record → Option (List Status)

/-- How far a step has come. -/
structure Progress (σ : Type) where
  /-- The state of the world. -/
  world : σ
  /-- The record of the step. -/
  record : Record
  /-- The calls so far. -/
  calls : List Call := []
  /-- What was logged so far. -/
  log : Log := []

namespace Progress

variable {σ : Type}

/-- Sets where the step stands. -/
def moveTo (p : Progress σ) (status : Status) : Progress σ :=
  { p with record := { p.record with status := status } }

/-- Adds to what was logged. -/
def report (p : Progress σ) (log : Log) : Progress σ :=
  { p with log := p.log ++ log }

end Progress

/-- What a step captured. -/
structure Execution where
  /-- The texts by output name. -/
  outputs : Outputs
  /-- How many items the loop had, if there is one. -/
  iterations : Option Nat
  deriving DecidableEq, Repr

/-- The parameters that hold paths. -/
def pathParameters : List String :=
  ["file_path", "file_paths", "output_file_path", "template_file_path", "json_file_path",
    "package_directory"]

/-- A value with the path that it is anchored at a directory. One that is blank or starts from the
root stays as it is. -/
def anchorItem (directory : Path) (v : Value) : Value :=
  match v.text? with
  | some s =>
    if Text.isBlank s || (Path.ofText s).isAbsolute then v
    else .text (directory.under (Path.ofText s)).text
  | none => v

/-- A value with the path that it is, or the paths that it lists, anchored at a directory. -/
def anchorValue (directory : Path) : Value → Value
  | .list items => .list (items.map (anchorItem directory))
  | v => anchorItem directory v

/-- Parameters with their paths anchored at the workflow's directory, if there is one. -/
def anchorPaths (directory : Option Path) (parameters : Parameters) : Parameters :=
  match directory with
  | none => parameters
  | some directory =>
    parameters.map fun (key, value) =>
      (key, if key.text?.any pathParameters.contains then anchorValue directory value else value)

namespace Step

/-- The file that output is delivered to, unless there is none or its name is empty. -/
def declaredPath? (s : Step) : Option String :=
  s.outputFilePath.filter (!·.isEmpty)

/-- Parameters with the step's own output file in place of any other. -/
def withOutputPath (s : Step) (parameters : Parameters) : Parameters :=
  match s.declaredPath? with
  | some path => parameters.put Loop.outputPathParameter (.text path)
  | none => parameters

/-- Parameters with the step's output file unless they name one. -/
def withDefaultOutputPath (s : Step) (parameters : Parameters) : Parameters :=
  if parameters.has Loop.outputPathParameter then parameters else s.withOutputPath parameters

variable {σ : Type}

/-- The failure of a step at a stage. -/
def fail (s : Step) (kind : FailureKind) (index : Option Nat) (cause : Cause) : Stop :=
  .failed ⟨s.name, kind, index, cause⟩

/-- A step stops for a pointer that cannot be followed. -/
def stopAt (s : Step) (index : Option Nat) : Pointer.Error → Stop
  | .unresolved reason => s.fail .resolution index (.unresolved reason)
  | .index fault => .broken fault

/-- A step stops for a loop without items. -/
def stopDiscovery (s : Step) : Loop.Error → Stop
  | .pointer e => s.stopAt none e
  | .noArrayField => s.fail .resolution none .noArrayField
  | .noItems => s.fail .resolution none .noItems

/-- The name of a step with the position of the item. -/
def placeOf (s : Step) (index : Option Nat) : String :=
  match index with
  | none => s.name
  | some i => s!"{s.name}[{i}]"

/-- Calls the operation of a step and captures the answer. -/
def call (s : Step) (setting : Setting σ) (parameters : Parameters) (index : Option Nat)
    (p : Progress σ) : Except Stop String × Progress σ :=
  let p := p.moveTo .invoking
  let context : Context := ⟨s.name, index, setting.workflowDirectory⟩
  match (Value.map parameters).written? with
  | .error fault => (.error (.broken fault), p)
  | .ok shown =>
    let p := p.report
      (Log.debug s!"Invoking '{s.operationName}' for {s.placeOf index} with {shown}")
    -- An operation that is not registered is never called.
    let p :=
      if setting.registry.has s.operationName then
        { p with calls :=
            p.calls ++ [⟨s.operationName, parameters, context, setting.statuses p.record⟩] }
      else p
    let (answer, world) := setting.registry.invoke s.operationName parameters context p.world
    let p := { p with world := world }
    match answer with
    | .error failure => (.error (s.fail .invocation index (.call failure)), p)
    | .ok value =>
      -- The octets are complained of even if their text turns out blank.
      let p := p.report (Capture.warnings value s.name)
      match Capture.toText value s.name with
      | .error e => (.error (s.fail .invocation index (.call (.unusable e))), p)
      | .ok text => (.ok text, p)

/-- Calls the operation of a step without a loop. -/
def runSingle (s : Step) (setting : Setting σ) (results : Results) (p : Progress σ) :
    Except Stop Execution × Progress σ :=
  let p := p.moveTo .resolving
  match Substitution.inEntries results s.parameters with
  | .error e => (.error (s.stopAt none e), p)
  | .ok parameters =>
    let parameters := anchorPaths setting.workflowDirectory (s.withOutputPath parameters)
    match s.call setting parameters none p with
    | (.error stop, p) => (.error stop, p)
    | (.ok text, p) => (.ok ⟨[(s.outputName, ⟨text, s.outputFormat⟩)], none⟩, p)

/-- Calls the operation of a step for items from a position on, and gives the texts. -/
def runItems (s : Step) (loop : Loop) (setting : Setting σ) (results : Results) :
    Nat → List String → Progress σ → Except Stop (List String) × Progress σ
  | _, [], p => (.ok [], p)
  | index, item :: items, p =>
    let p := p.moveTo .resolving
    match loop.applyItem s.parameters item results with
    | .error e => (.error (s.stopAt (some index) e), p)
    | .ok parameters =>
      let parameters := anchorPaths setting.workflowDirectory (s.withDefaultOutputPath parameters)
      match s.call setting parameters (some index) p with
      | (.error stop, p) => (.error stop, p)
      | (.ok text, p) =>
        match runItems s loop setting results (index + 1) items p with
        | (.error stop, p) => (.error stop, p)
        | (.ok texts, p) => (.ok (text :: texts), p)

/-- Calls the operation of a step for each item of its loop and joins the texts. -/
def runLoop (s : Step) (loop : Loop) (setting : Setting σ) (results : Results)
    (p : Progress σ) : Except Stop Execution × Progress σ :=
  let p := p.moveTo .resolving
  match loop.discover results with
  | .error e => (.error (s.stopDiscovery e), p)
  | .ok items =>
    let p := p.report (loop.discovered items ++
      Log.info s!"Step '{s.name}': looping over {items.length} items as '{loop.itemName}'")
    match s.runItems loop setting results 0 items p with
    | (.error stop, p) => (.error stop, p)
    | (.ok texts, p) =>
      (.ok ⟨[(s.outputName, Capture.combine texts s.outputFormat)], some items.length⟩, p)

/-- Runs a step, whether it is enabled or not. -/
def run (s : Step) (setting : Setting σ) (results : Results) (p : Progress σ) :
    Except Stop Execution × Progress σ :=
  match s.loop with
  | some loop => s.runLoop loop setting results p
  | none => s.runSingle setting results p

end Step

end Runbook
