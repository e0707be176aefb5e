import Runbook.Json.Printer
import Runbook.Number.Shortest
import Runbook.Value.Display

/-!
# Values as JSON

Two ways to write a value as JSON. `toJson` makes a JSON value of it, in which numbers that were
read keep their characters; it is what values are substituted and delivered by. `outline` writes
what an operation returned: numbers that are no finite number keep their words, and the characters
of a number that was read become a string.
-/

namespace Runbook.Value

/-- Why a value cannot be written as JSON. -/
inductive EncodeError where
  /-- JSON has no such kind of value. -/
  | unsupportedKind (kind : String)
  /-- A key of such a kind has no JSON text. -/
  | unsupportedKey (kind : String)
  /-- The number is no finite one. -/
  | notFinite
  /-- An integer cannot be written. -/
  | integer (fault : Number.IntegerFault)
  deriving DecidableEq, Repr

/-- The wording of an error. -/
def EncodeError.message : EncodeError → String
  | .unsupportedKind kind => s!"Object of type {kind} is not JSON serializable"
  | .unsupportedKey kind => s!"keys must be str, int, float, bool or None, not {kind}"
  | .notFinite => "Out of range float values are not JSON compliant"
  | .integer fault => fault.message

/-- The characters of an integer, if it can be written. -/
def integerText (n : Int) : Except EncodeError (List Char) :=
  if Number.isTooLong n then .error (.integer .tooLongToWrite) else .ok (Number.decimalText n)

mutual

/-- A value as JSON; keys that are no texts are shown as texts. -/
def toJson : Value → Except EncodeError Json
  | .null => .ok .null
  | .bool b => .ok (.bool b)
  | .integer n => (integerText n).map fun cs => .number (String.ofList cs)
  | .real x =>
    if x.isFinite then .ok (.number (x.text Number.structuredWords)) else .error .notFinite
  | .text s => .ok (.string s)
  | .number literal => .ok (.number literal)
  | .list items => (toJsonItems items).map .array
  | .tuple items => (toJsonItems items).map .array
  | .map entries => (toJsonEntries entries).map .object
  | .octets bs => .error (.unsupportedKind (Value.octets bs).kind)
  | .date d => .error (.unsupportedKind (Value.date d).kind)
  | .dateTime t => .error (.unsupportedKind (Value.dateTime t).kind)
  | .set items => .error (.unsupportedKind (Value.set items).kind)

/-- Items as JSON. -/
def toJsonItems : List Value → Except EncodeError (List Json)
  | [] => .ok []
  | item :: items => do
    let j ← toJson item
    let js ← toJsonItems items
    return j :: js

/-- Entries as members. -/
def toJsonEntries : List (Value × Value) → Except EncodeError (List (String × Json))
  | [] => .ok []
  | (key, value) :: entries => do
    -- A key that cannot be shown comes before its value.
    let k ← key.plain?.mapError .integer
    let j ← toJson value
    let js ← toJsonEntries entries
    return (k, j) :: js

end

/-- The JSON text of a value. -/
def encode (layout : Json.Layout) (v : Value) : Except EncodeError String :=
  v.toJson.map (Json.render layout)

/-- The text of a key in the outline of a map. -/
def outlineKey : Value → Except EncodeError (List Char)
  | .text s => .ok (Json.stringText s)
  | .number literal => .ok (Json.stringText literal)
  | .null => .ok (Json.stringText "null")
  | .bool b => .ok (Json.stringText (if b then "true" else "false"))
  | .integer n => (integerText n).map fun cs => Json.stringText (String.ofList cs)
  | .real x => .ok (Json.stringText (x.text Number.structuredWords))
  | key => .error (.unsupportedKey key.kind)

/-- Puts the lines of items or entries between brackets, which stand next to each other when there
are none. -/
def bracketed (width depth : Nat) (opening closing : Char) (lines : List Char) : List Char :=
  if lines.isEmpty then [opening, closing]
  else opening :: (lines ++ Json.newLine width depth ++ [closing])

mutual

/-- The lines that write a value standing at a depth, each level indented by `width`. -/
def outlineAt (width depth : Nat) : Value → Except EncodeError (List Char)
  | .null => .ok "null".toList
  | .bool b => .ok (if b then "true".toList else "false".toList)
  | .integer n => integerText n
  | .real x => .ok (x.text Number.structuredWords).toList
  | .text s => .ok (Json.stringText s)
  | .number literal => .ok (Json.stringText literal)
  | .list items =>
    (outlineItems width (depth + 1) [] items).map (bracketed width depth '[' ']')
  | .tuple items =>
    (outlineItems width (depth + 1) [] items).map (bracketed width depth '[' ']')
  | .map entries =>
    (outlineEntries width (depth + 1) [] entries).map (bracketed width depth '\x7b' '\x7d')
  | v => .error (.unsupportedKind v.kind)

/-- Items, each on a line of its own; `mark` ends the line before the first of them. -/
def outlineItems (width depth : Nat) (mark : List Char) :
    List Value → Except EncodeError (List Char)
  | [] => .ok []
  | item :: items => do
    let first ← outlineAt width depth item
    let rest ← outlineItems width depth [','] items
    return mark ++ Json.newLine width depth ++ first ++ rest

/-- Entries, each on a line of its own; `mark` ends the line before the first of them. -/
def outlineEntries (width depth : Nat) (mark : List Char) :
    List (Value × Value) → Except EncodeError (List Char)
  | [] => .ok []
  | (key, value) :: entries => do
    let k ← outlineKey key
    let v ← outlineAt width depth value
    let rest ← outlineEntries width depth [','] entries
    return mark ++ Json.newLine width depth ++ k ++ [':', ' '] ++ v ++ rest

end

/-- The outline of a value, each level indented by `width`. -/
def outline (width : Nat) (v : Value) : Except EncodeError String :=
  (outlineAt width 0 v).map String.ofList

end Runbook.Value
