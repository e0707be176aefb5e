import Runbook.Value.Basic

/-!
# Nesting of values

How deep lists and maps stand within one another. Values are looked through down to a depth limit; a
collection that stands within itself reaches beyond every limit.
-/

namespace Runbook.Value

/-- How many levels deep lists and maps are looked through. The number stands for the nested calls
that are left at that point out of an interpreter's thousand, so that a collection which stands
within itself exhausts them; no result rests on which number it is. -/
def depthLimit : Nat := 900

mutual

/-- The first list or map that stands within so many others. -/
def nested? : Nat → Value → Option Value
  | 0, .list items => some (.list items)
  | 0, .map entries => some (.map entries)
  | depth + 1, .list items => nestedItem? depth items
  | depth + 1, .map entries => nestedEntry? depth entries
  | _, _ => none

/-- The first list or map that stands within an item and so many others. -/
def nestedItem? (depth : Nat) : List Value → Option Value
  | [] => none
  | item :: items =>
    match nested? depth item with
    | some v => some v
    | none => nestedItem? depth items

/-- The first list or map that stands within the value of an entry and so many others. -/
def nestedEntry? (depth : Nat) : List (Value × Value) → Option Value
  | [] => none
  | (_, value) :: entries =>
    match nested? depth value with
    | some v => some v
    | none => nestedEntry? depth entries

end

/-- The list or map at which the depth limit is reached. -/
def beyondLimit? (v : Value) : Option Value :=
  nested? depthLimit v

end Runbook.Value
