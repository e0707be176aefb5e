import Runbook.Loop.Discovery
import Runbook.ShortName

/-!
# Putting an item into parameters

For each item of a loop the step's parameters are taken, their placeholders replaced, and then the
item put where its token stands. The file that output goes to takes the item's short name instead,
so that an item adds no level to the path.
-/

namespace Runbook.Loop

/-- The parameter that names the file which output goes to. -/
def outputPathParameter : String := "output_file_path"

/-- A text with the token of the items replaced. -/
def putInText (token new s : String) : String :=
  String.ofList (Text.replaceAll token.toList new.toList s.toList)

mutual

/-- A value with the token of the items replaced in its texts. -/
def putInValue (token new : String) : Value → Value
  | .text s => .text (putInText token new s)
  | .number literal => .text (putInText token new literal)
  | .list items => .list (putInItems token new items)
  | .map entries => .map (putInEntries token new entries)
  | v => v

/-- Items with the token replaced in their texts. -/
def putInItems (token new : String) : List Value → List Value
  | [] => []
  | item :: items => putInValue token new item :: putInItems token new items

/-- Entries with the token replaced in the texts of their values. -/
def putInEntries (token new : String) : List (Value × Value) → List (Value × Value)
  | [] => []
  | (key, value) :: entries => (key, putInValue token new value) :: putInEntries token new entries

end

/-- What takes the place of the token in a parameter: the item, or its short name where output goes
to a file. -/
def substitute (key value : Value) (item : String) : String :=
  match value with
  | .text _ => if key.text? == some outputPathParameter then ShortName.of item else item
  | _ => item

/-- Puts an item into parameters whose placeholders have been replaced. -/
def putItem (l : Loop) (item : String) (parameters : Parameters) : Parameters :=
  parameters.map fun (key, value) =>
    (key, putInValue l.itemToken (substitute key value item) value)

/-- The parameters of the call for one item. -/
def applyItem (l : Loop) (parameters : Parameters) (item : String) (results : Results) :
    Except Pointer.Error Parameters :=
  (Substitution.inEntries results parameters).map (l.putItem item)

/-- The parameters of the call for each item, in the order of the items. -/
def expand (l : Loop) (parameters : Parameters) (results : Results) :
    Except Error (List Parameters) := do
  let items ← l.discover results
  items.mapM fun item => (l.applyItem parameters item results).mapError .pointer

/-- Whether an item can be put into parameters does not depend on the item. -/
theorem applyItem_eq_error_iff (l : Loop) (parameters : Parameters) (item : String)
    (results : Results) (e : Pointer.Error) :
    l.applyItem parameters item results = .error e ↔
      Substitution.inEntries results parameters = .error e := by
  unfold applyItem
  cases Substitution.inEntries results parameters <;> simp [Except.map]

/-- Putting an item into parameters keeps their keys. -/
theorem map_fst_putItem (l : Loop) (item : String) (parameters : Parameters) :
    (l.putItem item parameters).map Prod.fst = parameters.map Prod.fst := by
  simp [putItem]

end Runbook.Loop
