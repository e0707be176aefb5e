import Runbook.Number.Integer
import Runbook.Value.Display

/-!
# Variable expressions

An expression is a token such as `@[User::Root]`, `@[System::StartTime]` or `@[Root]` in a text. A
token that names a variable is replaced by the variable's text, in which tokens are replaced again,
one level of depth less; a token that names none, or an empty one, stays as it is. What the system
knows at run time is shown by a marker.
-/

namespace Runbook.Expression

/-- A character of a text, or a token in it. -/
inductive Piece where
  /-- A character that belongs to no token. -/
  | char (c : Char)
  /-- A token, by what stands between its brackets. -/
  | token (reference : List Char)
  deriving DecidableEq, Repr

/-- The characters of a piece. -/
def Piece.text : Piece → List Char
  | .char c => [c]
  | .token reference => ['@', '['] ++ reference ++ [']']

/-- The token at the front of a text: what stands between its brackets is not empty and holds no
closing bracket. -/
def tokenAt? : List Char → Option (List Char)
  | '@' :: '[' :: cs =>
    let reference := cs.takeWhile (· != ']')
    if reference.isEmpty || (cs.drop reference.length).isEmpty then none else some reference
  | _ => none

/-- The pieces of a text whose next `skip` characters belong to a token that has been found. -/
def piecesFrom : Nat → List Char → List Piece
  | _, [] => []
  | skip + 1, _ :: cs => piecesFrom skip cs
  | 0, c :: cs =>
    match tokenAt? (c :: cs) with
    | some reference => .token reference :: piecesFrom (reference.length + 2) cs
    | none => .char c :: piecesFrom 0 cs

/-- The pieces of a text, tokens taken from left to right. -/
def pieces (cs : List Char) : List Piece :=
  piecesFrom 0 cs

/-- Variables by name, each with its text. -/
abbrev Table := List (String × String)

/-- The scope of the variables that a document declares. -/
def userScope : List Char := "User::".toList

/-- The scope of what the system knows at run time. -/
def systemScope : List Char := "System::".toList

/-- The variable that a reference outside the system's scope takes its text from. In the user's
scope a variable of the bare name comes before one of the scoped name. -/
def entry? (table : Table) (reference : List Char) : Option (String × String) :=
  let find (name : List Char) := table.find? fun (n, _) => n == String.ofList name
  if userScope.isPrefixOf reference then
    (find (reference.drop userScope.length)).or (find reference)
  else find reference

/-- What stands in for a value that is known at run time only. -/
def systemMarker (reference : List Char) : List Char :=
  "<System variable: ".toList ++ reference ++ ['>']

/-- The text that a reference is replaced by, unless there is none. -/
def replacement? (table : Table) (reference : List Char) : Option (List Char) :=
  if systemScope.isPrefixOf reference then some (systemMarker reference)
  else
    match entry? table reference with
    -- An empty text leaves the token in place.
    | some (_, text) => if text.isEmpty then none else some text.toList
    | none => none

/-- Replaces the tokens of a text, and those of the replacements up to the given depth. -/
def expand (table : Table) : Nat → List Char → List Char
  | 0, cs => cs
  | depth + 1, cs =>
    (pieces cs).flatMap fun piece =>
      match piece with
      | .char c => [c]
      | .token reference =>
        match replacement? table reference with
        | some text => expand table depth text
        | none => piece.text

/-- The names of the variables whose texts are taken when a text is expanded to a depth. -/
def taken (table : Table) : Nat → List Char → List String
  | 0, _ => []
  | depth + 1, cs =>
    (pieces cs).flatMap fun piece =>
      match piece with
      | .char _ => []
      | .token reference =>
        if systemScope.isPrefixOf reference then []
        else
          match entry? table reference with
          | some (name, text) => name :: taken table depth text.toList
          | none => []

/-- The depth that is used when none is asked for. -/
def defaultDepth : Int := 10

/-- Replaces the tokens of a text; a depth that is not positive leaves the text as it is. -/
def resolve (table : Table) (depth : Int) (text : String) : String :=
  String.ofList (expand table depth.toNat text.toList)

/-- The table of variables that have values; one without a value is not in it. -/
def tableOf (values : List (String × Value)) : Table :=
  values.filterMap fun (name, value) =>
    match value with
    | .null => none
    | value => some (name, value.plain)

/-- Replaces the tokens of a text by the texts of variables. It fails if one of the texts that are
taken cannot be written. -/
def resolveValues (values : List (String × Value)) (depth : Int) (text : String) :
    Except Number.IntegerFault String :=
  let table := tableOf values
  let long := values.filter fun (_, value) => value.holdsLongInteger
  if long.any fun (name, _) => (taken table depth.toNat text.toList).contains name then
    .error .tooLongToWrite
  else .ok (resolve table depth text)

/-- At depth zero nothing is replaced. -/
@[simp]
theorem expand_zero (table : Table) (cs : List Char) : expand table 0 cs = cs := by
  cases cs <;> rfl

end Runbook.Expression
