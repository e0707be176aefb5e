import Runbook.Document.Field
import Runbook.Workflow.Basic

/-!
# Steps from documents

A step is read field by field. A field that is missing or of the wrong type is a problem, and a step
with problems is read all the same, so that every problem is found.
-/

namespace Runbook.Document

/-- The fields of a step. -/
def stepFields : List String :=
  ["name", "type", "parameters", "enabled", "output", "loop", "output_file_path"]

/-- The fields of a loop. -/
def loopFields : List String := ["input_data", "item_name"]

/-- The fields of an output. -/
def outputFields : List String := ["name", "format"]

/-- Finds a problem of a field of the step at a position, for which a value stands in. -/
def problemAt {α : Type} (index : Nat) (place message : String) (value : α) : Finding α := do
  Finding.problem ⟨message, Workflow.fieldPath index place, 2⟩
  return value

/-- What stands for the name of a step that has none. -/
def placeholderName (index : Nat) : String := s!"<step_{index}>"

/-- The name of the step at a position. -/
def readName (index : Nat) (v : Value) : Finding String :=
  let missing := problemAt index "Name" s!"step {index} is missing a Name" (placeholderName index)
  match v with
  | .null => missing
  | v =>
    match v.text? with
    | some s => if Text.isBlank s then missing else return s
    | none =>
      problemAt index "Name" s!"Step {index} Name must be a string, got {v.kind}"
        (placeholderName index)

/-- The type of a step. -/
def readType (index : Nat) (name : String) (v : Value) : Finding String :=
  let missing := problemAt index "Type" s!"step {name} is missing a Type" ""
  match v with
  | .null => missing
  | v =>
    match v.text? with
    | some s => if Text.isBlank s then missing else return s
    | none => problemAt index "Type" s!"step {name} Type must be a string, got {v.kind}" ""

/-- The parameters of a step, whose keys have to be texts. -/
def readParameters (index : Nat) (name : String) (v : Value) : Finding Parameters :=
  match v with
  | .null => return []
  | .map entries =>
    let others := (entries.map Prod.fst).filter fun key => key.text?.isNone
    if others.isEmpty then return entries
    else do
      let shown ← Finding.wording (Value.list others).written?
      problemAt index "Parameters" s!"step {name} Parameters keys must be strings, got {shown}"
        entries
  | _ => problemAt index "Parameters" s!"step {name} Parameters must be an object" []

/-- Whether a step is enabled; one that does not say is not. -/
def readEnabled (index : Nat) (name : String) (v : Value) : Finding Bool :=
  match v with
  | .null => return false
  | .bool b => return b
  | _ => problemAt index "Enabled" s!"step {name} Enabled must be a boolean" false

/-- A text, or none where there is nothing; any other value is a problem. -/
def optionalText? (v : Value) : Except Unit (Option String) :=
  match v with
  | .null => .ok none
  | v =>
    match v.text? with
    | some s => .ok (some s)
    | none => .error ()

/-- The output that a step declares. -/
def readOutput (index : Nat) (name : String) (v : Value) : Finding (Option Output) :=
  match v with
  | .null => return none
  | .map entries =>
    let noText (place : String) : Finding (Option Output) :=
      problemAt index place s!"step {name} {place} must be a string" none
    match optionalText? (field entries "Name"), optionalText? (field entries "Format") with
    | .error _, _ => noText "Output.Name"
    | _, .error _ => noText "Output.Format"
    | .ok outputName, .ok format => do
      unknownFields outputFields
        (fun key => s!"Step '{name}': ignoring unknown Output field '{key}'") entries
      let format := (format.filter (!·.isEmpty)).getD "text"
      return some ⟨outputName.getD "", format⟩
  | _ => problemAt index "Output" s!"step {name} Output must be an object" none

/-- A text in the field of a loop, which is not blank. -/
def readLoopText (index : Nat) (name place : String) (v : Value) : Finding (Option String) :=
  match v.text?.filter fun s => !Text.isBlank s with
  | some s => return some s
  | none => problemAt index s!"loop.{place}" s!"step {name} loop is missing {place}" none

/-- The loop of a step. -/
def readLoop (index : Nat) (name : String) (v : Value) : Finding (Option Loop) :=
  match v with
  | .null => return none
  | .map entries => do
    let inputData? ← readLoopText index name "input_data" (field entries "input_data")
    let itemName? ← readLoopText index name "item_name" (field entries "item_name")
    match inputData?, itemName? with
    | some inputData, some itemName => do
      unknownFields loopFields
        (fun key => s!"Step '{name}': ignoring unknown loop field '{key}'") entries
      return some ⟨inputData, itemName⟩
    | _, _ => return none
  | _ => problemAt index "loop" s!"step {name} loop must be an object" none

/-- The file that a step's output is delivered to; a blank name is none. -/
def readOutputPath (index : Nat) (name : String) (v : Value) : Finding (Option String) :=
  match optionalText? v with
  | .ok path => return path.filter fun s => !Text.isBlank s
  | .error _ =>
    problemAt index "output_file_path" s!"step {name} output_file_path must be a string" none

/-- The step at a position, unless the value there is no map. -/
def readStep (index : Nat) (v : Value) : Finding (Option Step) :=
  match v with
  | .map entries => do
    -- Problems of later fields call the step by what stands for its name.
    let name ← readName index (field entries "Name")
    let type ← readType index name (field entries "Type")
    let parameters ← readParameters index name (field entries "Parameters")
    let enabled ← readEnabled index name (field entries "Enabled")
    let output ← readOutput index name (field entries "Output")
    let loop ← readLoop index name (field entries "loop")
    let path ← readOutputPath index name (field entries "output_file_path")
    unknownFields stepFields (fun key => s!"Step '{name}': ignoring unknown field '{key}'") entries
    return some {
      name := name
      type := type
      parameters := parameters
      enabled := enabled
      output := output
      loop := loop
      outputFilePath := path }
  | _ => do
    Finding.problem ⟨s!"Step {index} must be an object", s!"Steps[{index}]", 2⟩
    return none

/-- The steps from a position on. -/
def readSteps : Nat → List Value → Finding (List Step)
  | _, [] => return []
  | index, v :: vs => do
    let first ← readStep index v
    let rest ← readSteps (index + 1) vs
    return first.toList ++ rest

end Runbook.Document
