/-!
# JSON values

A JSON value keeps the order of an object's members and the literal of every number, so that what is
read can be written again character for character.
-/

namespace Runbook

/-- A JSON value. -/
inductive Json where
  /-- The null value. -/
  | null
  /-- A truth value. -/
  | bool (value : Bool)
  /-- A number, as the characters it is written with. -/
  | number (literal : String)
  /-- A string. -/
  | string (text : String)
  /-- An array. -/
  | array (items : List Json)
  /-- An object, with its members in order. -/
  | object (members : List (String × Json))
  deriving Repr, Inhabited, BEq

namespace Json

/-- The member of an object under a key. -/
def member? (key : String) (members : List (String × Json)) : Option Json :=
  members.lookup key

/-- Puts a member into an object: a key that is there already keeps its place and takes the new
value, a new key comes last. -/
def putMember (key : String) (value : Json) : List (String × Json) → List (String × Json)
  | [] => [(key, value)]
  | (k, v) :: rest => if k = key then (k, value) :: rest else (k, v) :: putMember key value rest

/-- The members of an object that was written with some keys more than once. -/
def collapse (members : List (String × Json)) : List (String × Json) :=
  members.foldl (fun done (k, v) => putMember k v done) []

/-- The keys after putting a member: the same keys, and the new key last if it was not there. -/
theorem map_fst_putMember (key : String) (value : Json) (members : List (String × Json)) :
    (putMember key value members).map Prod.fst =
      if key ∈ members.map Prod.fst then members.map Prod.fst
      else members.map Prod.fst ++ [key] := by
  induction members with
  | nil => simp [putMember]
  | cons entry rest ih =>
    obtain ⟨k, v⟩ := entry
    by_cases hk : k = key
    · simp [putMember, hk]
    · have hk' : key ≠ k := fun h => hk h.symm
      simp only [putMember, hk, if_false, List.map_cons, List.mem_cons, hk', false_or, ih]
      split <;> simp

end Json

end Runbook
