import Runbook.Json.Printer
import Runbook.Log
import Runbook.Reference.Substitution
import Runbook.Text.Blank
import Runbook.Workflow.Basic

/-!
# Discovering the items of a loop

The input of a loop, with its placeholders replaced, yields the items. JSON arrays yield their
elements, JSON objects those of the first array among a few members, a JSON string itself; every
other text is cut at line ends, commas and semicolons. An item is never blank.
-/

namespace Runbook.Loop

/-- Why a loop has no items. -/
inductive Error where
  /-- A placeholder of the input cannot be followed. -/
  | pointer (error : Pointer.Error)
  /-- The input is an object without any of the members that may hold the items. -/
  | noArrayField
  /-- There are no items in the input. -/
  | noItems
  deriving DecidableEq, Repr

/-- The members of an object that may hold the items; the first one that is an array counts. -/
def collectionFields : List String :=
  ["packages_absolute", "packages", "items", "files"]

/-- The wording of an error. -/
def Error.message : Error → String
  | .pointer error => error.message
  | .noArrayField =>
    let fields := Text.join ", " collectionFields
    s!"loop input JSON object did not contain an array field (looked for {fields})"
  | .noItems => "loop input did not yield any items"

/-- The item that an element of an array is: a string itself unless it is blank, and any other
element its JSON text. -/
def itemOf? : Json → Option String
  | .string text => if Text.isBlank text then none else some text
  | j => some (j.render none)

/-- The items of an array. -/
def itemsOfArray (elements : List Json) : List String :=
  elements.filterMap itemOf?

/-- A character between two items of a text. -/
def isSeparator (c : Char) : Bool :=
  c == '\n' || c == ',' || c == ';'

/-- The items of a text that is cut at separators. -/
def itemsOfText (s : String) : List String :=
  (((Text.splitWhere isSeparator s.toList).map Text.trimmed).filter (· != [])).map String.ofList

/-- The first array among the members of an object that may hold the items. -/
def collection? (members : List (String × Json)) : Option (List Json) :=
  collectionFields.findSome? fun field =>
    match Json.member? field members with
    | some (.array elements) => some elements
    | _ => none

/-- The items of an input, if there are any, in which placeholders have been replaced. -/
def itemsOfInput (s : String) : Except Error (List String) :=
  match Json.parse .strict s with
  | .ok (.array elements) => .ok (itemsOfArray elements)
  | .ok (.object members) =>
    match collection? members with
    | some elements => .ok (itemsOfArray elements)
    | none => .error .noArrayField
  | .ok (.string text) => .ok (if Text.isBlank text then [] else [text])
  -- The word for null is no item, while numbers and truth values are texts like any other.
  | .ok .null => .ok []
  | _ => .ok (itemsOfText s)

/-- The items of a loop. -/
def discover (l : Loop) (results : Results) : Except Error (List String) :=
  match Substitution.inText results l.inputData with
  | .error e => .error (.pointer e)
  | .ok input =>
    match itemsOfInput input with
    | .error e => .error e
    | .ok [] => .error .noItems
    | .ok items => .ok items

/-- What is logged about the items of a loop. -/
def discovered (l : Loop) (items : List String) : Log :=
  Log.debug s!"Loop over '{l.itemName}' discovered {items.length} items"

/-- A loop that has items has one at least. -/
theorem discover_ne_nil {l : Loop} {results : Results} {items : List String}
    (h : l.discover results = .ok items) : items ≠ [] := by
  unfold discover at h
  split at h
  · simp at h
  · split at h
    · simp at h
    · simp at h
    · simp only [Except.ok.injEq] at h
      subst h
      assumption

end Runbook.Loop
