import Runbook.Path
import Runbook.Value.Basic

/-!
# Workflows

A workflow is a list of steps in the order in which they run. A step names an operation and gives
the parameters to call it with; it may declare an output, fan out over the items of a loop, and have
its output delivered to a file.
-/

namespace Runbook

/-- The declared output of a step. -/
structure Output where
  /-- The name by which placeholders refer to the output. -/
  name : String
  /-- The declared format of the text. -/
  format : String := "text"
  deriving DecidableEq, Repr, Inhabited

/-- The loop of a step that is called once for each item. -/
structure Loop where
  /-- A text with placeholders that yields the items. -/
  inputData : String
  /-- The name that stands for an item. -/
  itemName : String
  deriving DecidableEq, Repr, Inhabited

/-- The token that an item takes the place of: the loop's item name between braces. -/
def Loop.itemToken (l : Loop) : String :=
  "\x7b" ++ l.itemName ++ "\x7d"

/-- A step. -/
structure Step where
  /-- The name of the step. -/
  name : String
  /-- The name of the operation; one leading number sign does not count. -/
  type : String
  /-- What the operation is called with, before placeholders are replaced. -/
  parameters : Parameters := []
  /-- Whether the step runs. -/
  enabled : Bool := false
  /-- The declared output. -/
  output : Option Output := none
  /-- The loop, if the step has one. -/
  loop : Option Loop := none
  /-- The file that the output is delivered to. -/
  outputFilePath : Option String := none
  deriving Repr, Inhabited

namespace Step

/-- The name of the operation. -/
def operationName (s : Step) : String :=
  match s.type.toList with
  | '#' :: rest => String.ofList rest
  | _ => s.type

/-- The output of a step that declares none, or one without a name. -/
def defaultOutput : Output := ⟨"Result", "text"⟩

/-- The output that captured texts are put under: a declared one counts only if it has a name. -/
def effectiveOutput (s : Step) : Output :=
  match s.output with
  | some output => if output.name.isEmpty then defaultOutput else output
  | none => defaultOutput

/-- The name of the output. -/
def outputName (s : Step) : String := s.effectiveOutput.name

/-- The format of the output. -/
def outputFormat (s : Step) : String := s.effectiveOutput.format

end Step

/-- A workflow. -/
structure Workflow where
  /-- The steps in order. -/
  steps : List Step
  /-- The document that the workflow was read from. -/
  sourcePath : Option Path := none
  deriving Repr, Inhabited

namespace Workflow

/-- The directory that relative paths of a workflow start from. -/
def baseDirectory (w : Workflow) : Option Path :=
  w.sourcePath.map Path.parent

/-- The first step of a name. -/
def step? (w : Workflow) (name : String) : Option Step :=
  w.steps.find? (·.name == name)

/-- The path of a file that a step names, as seen from the workflow's directory. -/
def destination (w : Workflow) (target : String) : Path :=
  match w.baseDirectory with
  | none => Path.ofText target
  | some base => base.under (Path.ofText target)

end Workflow

end Runbook
