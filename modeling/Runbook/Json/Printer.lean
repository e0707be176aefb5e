import Runbook.Json.Basic
import Runbook.Text.Digit
import Runbook.Text.Split

/-!
# Writing JSON

The text of a JSON value, either compact or with one member or item on a line, each level indented
by the same number of spaces. Characters outside ASCII are written as they are.
-/

namespace Runbook.Json

/-- One character as it stands inside a string: the quote, the backslash and the characters below
the space are escaped. -/
def escapedChar (c : Char) : List Char :=
  if c = '"' then ['\\', '"']
  else if c = '\\' then ['\\', '\\']
  else if c = '\n' then ['\\', 'n']
  else if c = '\r' then ['\\', 'r']
  else if c = '\t' then ['\\', 't']
  else if c = '\x0c' then ['\\', 'f']
  else if c = '\x08' then ['\\', 'b']
  else if c.toNat < 0x20 then ['\\', 'u'] ++ Text.hexDigits 4 c.toNat
  else [c]

/-- The characters of a string between its quotes. -/
def stringText (s : String) : List Char :=
  '"' :: (s.toList.flatMap escapedChar ++ ['"'])

/-- How values are laid out: the number of spaces by which a level is indented, or none for text
without any blanks. -/
abbrev Layout := Option Nat

/-- A line end and the indentation of a level. -/
def newLine (width depth : Nat) : List Char :=
  '\n' :: List.replicate (width * depth) ' '

/-- Puts parts between brackets, at the depth of the value that they are parts of. -/
def enclose (layout : Layout) (depth : Nat) (opening closing : Char) (parts : List (List Char)) :
    List Char :=
  if parts.isEmpty then [opening, closing]
  else
    match layout with
    | none => opening :: (Text.joinWith [','] parts ++ [closing])
    | some width =>
      let inner := newLine width (depth + 1)
      opening :: (inner ++ Text.joinWith (',' :: inner) parts ++ newLine width depth ++ [closing])

/-- What stands between a key and its value. -/
def keyMark : Layout → List Char
  | none => [':']
  | some _ => [':', ' ']

mutual

/-- The characters of a value that stands at a depth. -/
def print (layout : Layout) (depth : Nat) : Json → List Char
  | .null => "null".toList
  | .bool true => "true".toList
  | .bool false => "false".toList
  | .number literal => literal.toList
  | .string text => stringText text
  | .array items => enclose layout depth '[' ']' (printItems layout (depth + 1) items)
  | .object members =>
    enclose layout depth '\x7b' '\x7d' (printMembers layout (depth + 1) members)

/-- The characters of each item. -/
def printItems (layout : Layout) (depth : Nat) : List Json → List (List Char)
  | [] => []
  | item :: items => print layout depth item :: printItems layout depth items

/-- The characters of each member. -/
def printMembers (layout : Layout) (depth : Nat) : List (String × Json) → List (List Char)
  | [] => []
  | (key, value) :: members =>
    (stringText key ++ keyMark layout ++ print layout depth value) ::
      printMembers layout depth members

end

/-- The text of a value. -/
def render (layout : Layout) (j : Json) : String :=
  String.ofList (print layout 0 j)

end Runbook.Json
