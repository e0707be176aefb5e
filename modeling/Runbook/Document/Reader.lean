import Runbook.Json.Parser
import Runbook.Number.Real
import Runbook.Path
import Runbook.Value.Basic
import Runbook.Yaml.Value

/-!
# Reading documents

The text of a workflow document is JSON or else YAML. Numbers of either become integers or binary
numbers.
-/

namespace Runbook

mutual

/-- A JSON value as a value, its numbers as integers or binary numbers. -/
def Value.ofDocument : Json → Value
  | .null => .null
  | .bool b => .bool b
  | .number literal => ofLiteral literal
  | .string s => .text s
  | .array items => .list (ofDocumentItems items)
  | .object members => .map (ofDocumentMembers members)

/-- The items of a JSON array as values. -/
def Value.ofDocumentItems : List Json → List Value
  | [] => []
  | item :: items => ofDocument item :: ofDocumentItems items

/-- The members of a JSON object as entries. -/
def Value.ofDocumentMembers : List (String × Json) → List (Value × Value)
  | [] => []
  | (key, value) :: members => (.text key, ofDocument value) :: ofDocumentMembers members

/-- The number that a literal denotes: an integer if it is written as one. -/
def Value.ofLiteral (literal : String) : Value :=
  match Number.readInteger 10 literal with
  | .ok n => .integer n
  | .error _ =>
    match Number.readReal literal with
    | .ok x => .real x
    | .error _ => .null

end

namespace Document

/-- Why a text holds no document. -/
inductive Error where
  /-- The text is neither JSON, for this reason, nor well-formed YAML. -/
  | unreadable (json : Json.Error)
  /-- The text is well-formed YAML, but a scalar in it denotes no value of its type. -/
  | scalar (fault : Yaml.Fault)
  deriving DecidableEq, Repr

/-- The wording of an error; the text is known by a path, if it has one. -/
def Error.message (path : Option Path) : Error → String
  | .unreadable json =>
    let name := match path with
      | some p => p.text
      | none => "<document>"
    s!"failed to parse workflow {name}: {json.message}; {Yaml.Fault.malformed.message}"
  | .scalar fault => fault.message

/-- The value that the text of a document denotes. -/
def read (s : String) : Except Error Value :=
  match Json.parse .lenient s with
  | .ok j => .ok (Value.ofDocument j)
  | .error e =>
    match Yaml.load s with
    | .ok v => .ok v
    | .error .malformed => .error (.unreadable e)
    | .error fault => .error (.scalar fault)

end Document

end Runbook
