import Runbook.Json.Printer
import Runbook.Reference.Placeholder
import Runbook.Reference.Pointer
import Runbook.Value.Encode

/-!
# Substituting placeholders

Every placeholder in a text is replaced by the text of the value that it points to; what is put in
is not looked at again. In lists and maps every text is treated so, while keys and all other values
stay as they are.
-/

namespace Runbook

/-- The text that a JSON value is inserted as: nothing for null, strings and numbers as their
characters, and everything else as compact JSON. -/
def Json.inserted : Json → String
  | .null => ""
  | .string text => text
  | .number literal => literal
  | j => j.render none

/-- The text that a value is inserted as. -/
def Value.inserted : Value → Except Value.EncodeError String
  | .null => .ok ""
  | .text s => .ok s
  | .number literal => .ok literal
  | v => v.encode none

namespace Substitution

/-- The characters that a piece of a text becomes. -/
def ofPiece (results : Results) : Reference.Piece → Except Pointer.Error (List Char)
  | .char c => .ok [c]
  | .placeholder r => (Pointer.resolve results r.step r.output).map fun j => j.inserted.toList

/-- The characters that pieces of a text become, one after the other. -/
def ofPieces (results : Results) : List Reference.Piece → Except Pointer.Error (List Char)
  | [] => .ok []
  | piece :: pieces => do
    -- The first placeholder that cannot be followed decides.
    let first ← ofPiece results piece
    let rest ← ofPieces results pieces
    return first ++ rest

/-- A text with its placeholders replaced. -/
def inText (results : Results) (s : String) : Except Pointer.Error String :=
  (ofPieces results (Reference.pieces s)).map String.ofList

mutual

/-- A value with the placeholders in its texts replaced. -/
def inValue (results : Results) : Value → Except Pointer.Error Value
  | .text s => (inText results s).map .text
  | .number literal => (inText results literal).map .text
  | .list items => (inItems results items).map .list
  | .map entries => (inEntries results entries).map .map
  | v => .ok v

/-- Items with the placeholders in their texts replaced. -/
def inItems (results : Results) : List Value → Except Pointer.Error (List Value)
  | [] => .ok []
  | item :: items => do
    let first ← inValue results item
    let rest ← inItems results items
    return first :: rest

/-- Entries with the placeholders in the texts of their values replaced. -/
def inEntries (results : Results) :
    List (Value × Value) → Except Pointer.Error (List (Value × Value))
  | [] => .ok []
  | (key, value) :: entries => do
    let first ← inValue results value
    let rest ← inEntries results entries
    return (key, first) :: rest

end

end Substitution

end Runbook
