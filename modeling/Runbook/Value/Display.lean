import Runbook.Number.Integer
import Runbook.Number.Shortest
import Runbook.Text.Quoted
import Runbook.Text.Split
import Runbook.Value.Basic

/-!
# Values as plain text

The text that a value is shown as in messages and where a text is called for. A text is shown as its
characters and any other value in its written form, in which texts stand between quotes. A value
that holds an integer of more digits than are written cannot be shown.
-/

namespace Runbook.Value

mutual

/-- The written form of a value. -/
def written : Value → String
  | .null => "None"
  | .bool b => if b then "True" else "False"
  | .integer n => String.ofList (Number.decimalText n)
  | .real x => x.text Number.plainWords
  | .text s => Text.quoted s
  | .number literal => Text.quoted literal
  | .octets bs => Text.quotedOctets bs
  | .date d => d.call
  | .dateTime t => t.call
  | .list items => "[" ++ Text.join ", " (writtenItems items) ++ "]"
  | .tuple [item] => "(" ++ written item ++ ",)"
  | .tuple items => "(" ++ Text.join ", " (writtenItems items) ++ ")"
  | .set [] => "set()"
  | .set items => "\x7b" ++ Text.join ", " (writtenItems items) ++ "\x7d"
  | .map entries => "\x7b" ++ Text.join ", " (writtenEntries entries) ++ "\x7d"

/-- The written forms of items. -/
def writtenItems : List Value → List String
  | [] => []
  | item :: items => written item :: writtenItems items

/-- The written forms of entries. -/
def writtenEntries : List (Value × Value) → List String
  | [] => []
  | (key, value) :: entries => (written key ++ ": " ++ written value) :: writtenEntries entries

end

mutual

/-- Whether a value holds an integer of more digits than are written. -/
def holdsLongInteger : Value → Bool
  | .integer n => Number.isTooLong n
  | .list items => anyLongInteger items
  | .tuple items => anyLongInteger items
  | .set items => anyLongInteger items
  | .map entries => anyLongEntry entries
  | _ => false

/-- Whether one of the items holds such an integer. -/
def anyLongInteger : List Value → Bool
  | [] => false
  | item :: items => holdsLongInteger item || anyLongInteger items

/-- Whether one of the entries holds such an integer. -/
def anyLongEntry : List (Value × Value) → Bool
  | [] => false
  | (key, value) :: entries =>
    holdsLongInteger key || holdsLongInteger value || anyLongEntry entries

end

/-- The text of a value: a text is its characters, dates and times have their usual form, and every
other value has its written form. -/
def plain : Value → String
  | .text s => s
  | .number literal => literal
  | .date d => d.text
  | .dateTime t => t.text " "
  | v => written v

/-- The written form of a value, if it can be written. -/
def written? (v : Value) : Except Number.IntegerFault String :=
  if v.holdsLongInteger then .error .tooLongToWrite else .ok v.written

/-- The text of a value, if it can be written. -/
def plain? (v : Value) : Except Number.IntegerFault String :=
  if v.holdsLongInteger then .error .tooLongToWrite else .ok v.plain

end Runbook.Value
