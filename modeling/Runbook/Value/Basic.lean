import Runbook.Calendar
import Runbook.Json.Basic
import Runbook.Number.Binary64

/-!
# Parameter values

The values that documents hold, that steps pass to operations, and that operations return: JSON's,
and beside them integers and binary numbers, octets, dates, tuples, sets, and maps whose keys need
not be texts.
-/

namespace Runbook

/-- A value. -/
inductive Value where
  /-- The null value. -/
  | null
  /-- A truth value. -/
  | bool (value : Bool)
  /-- An integer. -/
  | integer (value : Int)
  /-- A binary number. -/
  | real (value : Number.Binary64)
  /-- A text. -/
  | text (value : String)
  /-- A number as the characters it was written with; it also serves as a text. -/
  | number (literal : String)
  /-- Octets. -/
  | octets (value : List UInt8)
  /-- A day. -/
  | date (value : Calendar.Date)
  /-- A time of a day. -/
  | dateTime (value : Calendar.DateTime)
  /-- A list. -/
  | list (items : List Value)
  /-- A tuple. -/
  | tuple (items : List Value)
  /-- A set, its members in the order in which they were put in. -/
  | set (items : List Value)
  /-- A map, its entries in the order in which their keys were put in. -/
  | map (entries : List (Value × Value))
  deriving Repr, Inhabited, BEq

/-- Named values, in order: what an operation is called with. A key that serves as a text is a name;
other keys name nothing. -/
abbrev Parameters := List (Value × Value)

namespace Value

/-- The word for a value's kind, as messages give it. -/
def kind : Value → String
  | .null => "NoneType"
  | .bool _ => "bool"
  | .integer _ => "int"
  | .real _ => "float"
  | .text _ => "str"
  | .number _ => "JsonNumber"
  | .octets _ => "bytes"
  | .date _ => "date"
  | .dateTime _ => "datetime"
  | .list _ => "list"
  | .tuple _ => "tuple"
  | .set _ => "set"
  | .map _ => "dict"

/-- The characters of a value that serves as a text. -/
def text? : Value → Option String
  | .text s => some s
  | .number literal => some literal
  | _ => none

/-- The integer that a value counts as; a truth value counts as one or zero. -/
def integer? : Value → Option Int
  | .bool b => some (if b then 1 else 0)
  | .integer n => some n
  | .real x => x.toInt?
  | _ => none

mutual

/-- Whether two values are the same key: numbers by what they count as, texts by their characters,
times by their moment, tuples item by item. -/
def sameKey : Value → Value → Bool
  | .null, .null => true
  | .octets a, .octets b => a == b
  | .date a, .date b => a == b
  | .dateTime a, .dateTime b => a.sameMoment b
  | .tuple a, .tuple b => sameKeys a b
  | .real a, .real b => a.sameNumber b
  | a, b =>
    match a.text?, b.text? with
    | some s, some t => s == t
    | none, none =>
      match a.integer?, b.integer? with
      | some m, some n => m == n
      | _, _ => false
    | _, _ => false

/-- Whether the items of two lists are the same keys, one by one. -/
def sameKeys : List Value → List Value → Bool
  | [], [] => true
  | a :: as, b :: bs => sameKey a b && sameKeys as bs
  | _, _ => false

end

/-- Puts an entry into a map: a key that is there already keeps its place and takes the new value,
a new key comes last. -/
def putEntry (key value : Value) : List (Value × Value) → List (Value × Value)
  | [] => [(key, value)]
  | (k, v) :: rest =>
    if sameKey k key then (k, value) :: rest else (k, v) :: putEntry key value rest

/-- The entries of a map into which entries are put one after the other. -/
def collapse (entries : List (Value × Value)) : List (Value × Value) :=
  entries.foldl (fun done (k, v) => putEntry k v done) []

/-- The members of a set into which values are put one after the other. -/
def distinct (items : List Value) : List Value :=
  items.foldl (fun done v => if done.any (sameKey · v) then done else done ++ [v]) []

mutual

/-- A JSON value as a value; numbers keep their characters. -/
def ofJson : Json → Value
  | .null => .null
  | .bool b => .bool b
  | .number literal => .number literal
  | .string s => .text s
  | .array items => .list (ofItems items)
  | .object members => .map (ofMembers members)

/-- The items of a JSON array as values. -/
def ofItems : List Json → List Value
  | [] => []
  | item :: items => ofJson item :: ofItems items

/-- The members of a JSON object as entries. -/
def ofMembers : List (String × Json) → List (Value × Value)
  | [] => []
  | (key, value) :: members => (.text key, ofJson value) :: ofMembers members

end

end Value

namespace Parameters

/-- The value under a name. -/
def get? (p : Parameters) (name : String) : Option Value :=
  (p.find? fun (key, _) => key.text? == some name).map Prod.snd

/-- Puts a value under a name: a name that is there already keeps its place. -/
def put (name : String) (value : Value) : Parameters → Parameters
  | [] => [(.text name, value)]
  | (key, v) :: rest =>
    if key.text? = some name then (key, value) :: rest else (key, v) :: put name value rest

/-- Whether a name is there. -/
def has (p : Parameters) (name : String) : Bool :=
  p.any fun (key, _) => key.text? == some name

/-- A value that is put under a name is found there. -/
@[simp]
theorem get?_put (name : String) (value : Value) (p : Parameters) :
    get? (put name value p) name = some value := by
  induction p with
  | nil => simp [put, get?, Value.text?]
  | cons entry rest ih =>
    obtain ⟨key, v⟩ := entry
    by_cases h : key.text? = some name
    · simp [put, get?, h]
    · simpa [put, get?, h] using ih

/-- Values that are changed in their places are found changed under their names. -/
theorem get?_map (f : Value → Value → Value) (p : Parameters) (name : String) {value : Value}
    (h : p.get? name = some value) :
    ∃ key : Value, key.text? = some name ∧
      get? (p.map fun (key, value) => (key, f key value)) name = some (f key value) := by
  obtain ⟨⟨key, found⟩, hfind, rfl⟩ := Option.map_eq_some_iff.mp h
  have hkey := List.find?_some hfind
  refine ⟨key, beq_iff_eq.mp hkey, ?_⟩
  rw [get?, List.find?_map]
  change ((p.find? fun (key, _) => key.text? == some name).map _).map _ = _
  rw [hfind]
  rfl

end Parameters

end Runbook
