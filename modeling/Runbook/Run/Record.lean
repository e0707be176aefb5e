import Runbook.Json.Basic
import Runbook.Number.Integer
import Runbook.Results
import Runbook.Text.Split

/-!
# The record of a run

Where every step of a run stands, and the summary of the whole, which is written as JSON or as a
document with headings and a list.
-/

namespace Runbook

/-- Where a step stands. -/
inductive Status where
  /-- The step's turn has not come. -/
  | pending
  /-- The step's parameters are being filled in. -/
  | resolving
  /-- The step's operation is being called. -/
  | invoking
  /-- The step's output is captured. -/
  | captured
  /-- The step failed. -/
  | failed
  /-- The step is disabled and its turn has passed. -/
  | skipped
  deriving DecidableEq, Repr, Inhabited

/-- The name of a status. -/
def Status.name : Status → String
  | .pending => "pending"
  | .resolving => "resolving"
  | .invoking => "invoking"
  | .captured => "captured"
  | .failed => "failed"
  | .skipped => "skipped"

/-- Where a run stands. -/
inductive RunStatus where
  /-- The run has not begun. -/
  | pending
  /-- The run has begun. -/
  | running
  /-- All steps have had their turn. -/
  | completed
  /-- A step failed. -/
  | failed
  deriving DecidableEq, Repr, Inhabited

/-- The name of a run's status. -/
def RunStatus.name : RunStatus → String
  | .pending => "pending"
  | .running => "running"
  | .completed => "completed"
  | .failed => "failed"

/-- The record of a step. -/
structure Record where
  /-- The name of the step. -/
  name : String
  /-- The type of the step. -/
  type : String
  /-- Whether the step is enabled. -/
  enabled : Bool
  /-- Where the step stands. -/
  status : Status := .pending
  /-- How many items the step's loop had. -/
  loopIterations : Option Int := none
  /-- How long the step took, in milliseconds. -/
  duration : Option Int := none
  /-- What made the step fail. -/
  error : Option String := none
  /-- What the step captured. -/
  outputs : Outputs := []
  deriving DecidableEq, Repr, Inhabited

/-- The record of a run. -/
structure Summary where
  /-- The document of the workflow. -/
  workflowPath : Option String := none
  /-- Where the run stands. -/
  status : RunStatus := .pending
  /-- The records of the steps in order. -/
  steps : List Record := []
  /-- The files that outputs were delivered to. -/
  filesWritten : List String := []
  /-- What made the run fail. -/
  error : Option String := none
  deriving DecidableEq, Repr, Inhabited

/-- A captured text as JSON. -/
def Captured.toJson (c : Captured) : Json :=
  .object [("value", .string c.value), ("format", .string c.format)]

/-- Captured texts by output name as JSON. -/
def Outputs.toJson (outputs : Outputs) : Json :=
  .object (outputs.map fun (name, captured) => (name, captured.toJson))

/-- The member under a key, if there is a value for it. -/
def optionalMember (key : String) (value : Option Json) : List (String × Json) :=
  match value with
  | none => []
  | some value => [(key, value)]

/-- An integer as JSON. -/
def integerJson (n : Int) : Json :=
  .number (String.ofList (Number.decimalText n))

namespace Record

/-- The record as JSON; what is not known or empty is left out. -/
def toJson (r : Record) : Json :=
  .object <|
    [("name", .string r.name), ("type", .string r.type), ("enabled", .bool r.enabled),
      ("status", .string r.status.name)] ++
    optionalMember "loop_iterations" (r.loopIterations.map integerJson) ++
    optionalMember "duration_ms" (r.duration.map integerJson) ++
    optionalMember "error" (r.error.map .string) ++
    (if r.outputs.isEmpty then [] else [("outputs", Outputs.toJson r.outputs)])

/-- The sign for where a step stands. -/
def marker (r : Record) : String :=
  match r.status with
  | .captured => "✅"
  | .skipped => "⏭️"
  | .failed => "❌"
  | _ => "•"

/-- The lines about a step's captured texts. -/
def outputLines (r : Record) : List String :=
  if r.outputs.isEmpty then []
  else
    "   - Outputs:" :: r.outputs.map fun (name, captured) =>
      s!"     - {name} ({captured.format}): {captured.value.length} chars"

/-- The lines about a step at a position. -/
def lines (position : Nat) (r : Record) : List String :=
  let iterations := match r.loopIterations with
    | none => ""
    | some n => s!" - {n} iterations"
  let error := match r.error with
    | none => []
    | some e => if e.isEmpty then [] else [s!"   - Error: {e}"]
  [s!"{position}. {r.marker} {r.name} ({r.type}){iterations}"] ++ error ++ r.outputLines ++ [""]

end Record

namespace Summary

/-- The first record of a step's name. -/
def step? (s : Summary) (name : String) : Option Record :=
  s.steps.find? (·.name == name)

/-- Where the steps stand, in order. -/
def statuses (s : Summary) : List Status :=
  s.steps.map Record.status

/-- The summary as JSON; files and error are left out when there are none. -/
def toJson (s : Summary) : Json :=
  let error := match s.error with
    | none => []
    | some e => if e.isEmpty then [] else [("error", Json.string e)]
  .object <|
    [("workflow_path", (s.workflowPath.map Json.string).getD .null),
      ("status", .string s.status.name), ("steps", .array (s.steps.map Record.toJson))] ++
    (if s.filesWritten.isEmpty then []
      else [("files_written", .array (s.filesWritten.map .string))]) ++
    error

/-- The lines about steps from a position on. -/
def stepLines : Nat → List Record → List String
  | _, [] => []
  | position, record :: records => record.lines position ++ stepLines (position + 1) records

/-- The name of the workflow in a document. -/
def title (s : Summary) : String :=
  match s.workflowPath with
  | some path => if path.isEmpty then "<in-memory>" else path
  | none => "<in-memory>"

/-- The summary as a document. -/
def toMarkdown (s : Summary) : String :=
  let files :=
    if s.filesWritten.isEmpty then []
    else ["## Files Written", ""] ++ s.filesWritten.map (fun path => s!"- {path}") ++ [""]
  Text.join "\n" <|
    ["# Workflow Execution Summary", "", s!"**Workflow:** {s.title}", "",
      s!"**Status:** {s.status.name}", "", "## Steps", ""] ++
    stepLines 1 s.steps ++ files

end Summary

end Runbook
