import Runbook.Document.Finding
import Runbook.Text.Lowercase
import Runbook.Value.Display

/-!
# Fields of documents

The maps of a document have fields. The case of letters in the name of a field does not count, but a
field under its very name goes before one in another case. Fields that are not known are warned of.
-/

namespace Runbook.Document

/-- The entries of a map. -/
abbrev Entries := List (Value × Value)

/-- Whether a key is a field's name in any case. -/
def isField (name : String) (key : Value) : Bool :=
  match key.text? with
  | some s => Text.foldCase s == Text.foldCase name
  | none => false

/-- The value of a field: under its very name, or else under the first key that is its name in any
case. -/
def field (entries : Entries) (name : String) : Value :=
  match Parameters.get? entries name with
  | some v => v
  | none => ((entries.find? fun (key, _) => isField name key).map Prod.snd).getD .null

/-- Whether a value counts as nothing: null, false, zero, or without characters or members. -/
def isVoid : Value → Bool
  | .null => true
  | .bool b => !b
  | .integer n => n == 0
  | .real x => x.sameNumber (.zero false)
  | .text s => s.isEmpty
  | .number literal => literal.isEmpty
  | .octets bs => bs.isEmpty
  | .list items => items.isEmpty
  | .tuple items => items.isEmpty
  | .set items => items.isEmpty
  | .map entries => entries.isEmpty
  | .date _ => false
  | .dateTime _ => false

/-- Warns of the keys that are no fields, in order. -/
def unknownFields (known : List String) (warning : String → String) : Entries → Finding Unit
  | [] => return
  | (key, _) :: rest => do
    unless known.any (isField · key) do
      Finding.warning (warning (← .wording key.plain?))
    unknownFields known warning rest

end Runbook.Document
