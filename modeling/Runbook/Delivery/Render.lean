import Runbook.Json.Printer
import Runbook.Json.Stream
import Runbook.Log
import Runbook.Results
import Runbook.ShortName
import Runbook.Workflow.Basic

/-!
# The content of delivered files

JSON outputs are gathered into one list under `data`, in which objects about a file gain the name of
the package that the file is. Every other output is written as it is. Either ends in one line end.
-/

namespace Runbook.Delivery

/-- The values of an output as one list: a single list is the list itself. -/
def normalize (values : List Json) : List Json :=
  match values with
  | [.array items] => items
  | values => values

/-- The members that name a file. -/
def fileFields : List String := ["file", "file_path"]

/-- The member that names a package. -/
def packageField : String := "package"

/-- The characters of a member that names a file: a string or a number that has any. -/
def fileName? (members : List (String × Json)) (field : String) : Option String :=
  match Json.member? field members with
  | some (.string text) => if text.isEmpty then none else some text
  | some (.number literal) => if literal.isEmpty then none else some literal
  | _ => none

/-- An object that names a file and no package gains the name of the package as its last member. -/
def withPackage : Json → Json
  | .object members =>
    if (Json.member? packageField members).isSome then .object members
    else
      match fileFields.findSome? (fileName? members) with
      | some file => .object (members ++ [(packageField, .string (ShortName.of file))])
      | none => .object members
  | j => j

/-- The document that values are gathered into. -/
def gathered (values : List Json) : Json :=
  .object [("data", .array ((normalize values).map withPackage))]

/-- The content of a file with the given values. -/
def jsonContent (values : List Json) : String :=
  (gathered values).render (some 2) ++ "\n"

/-- The content of a file with the given text, whose own line ends at its end do not count. -/
def textContent (s : String) : String :=
  String.ofList (Text.dropEnd (· == '\n') s.toList) ++ "\n"

/-- Whether an output is to be written as JSON. -/
def wantsJson (step : Step) (captured : Captured) : Bool :=
  isJsonFormat step.outputFormat || captured.isJson

/-- The content of the file that an output of a step is delivered to. -/
def render (step : Step) (captured : Captured) : String :=
  if wantsJson step captured then
    match Json.parseMany captured.value with
    | .ok values => jsonContent values
    | .error _ => textContent captured.value
  else textContent captured.value

/-- What is logged about the content: that an output is no JSON although it should be. -/
def renderWarnings (step : Step) (captured : Captured) : Log :=
  if wantsJson step captured then
    match Json.parseMany captured.value with
    | .ok _ => []
    | .error e =>
      Log.warning <|
        s!"Step '{step.name}' declared JSON output that could not be decoded ({e.message}); " ++
          "writing raw text"
  else []

end Runbook.Delivery
