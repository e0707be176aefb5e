import Runbook.Value.Basic

/-!
# Placeholders

A placeholder such as `{Analyze.Report.summary.count}` names a step, one of its outputs, and perhaps
a dotted path into the output. It stands between braces, and both the step's name and what follows
the first point are made of ASCII letters, digits, underscores and hyphens, the latter of points
too.
-/

namespace Runbook

/-- The step and the output that a placeholder names, the output with the path into it. -/
structure Reference where
  /-- The name of the step. -/
  step : String
  /-- The output's name and, after a point, the path. -/
  output : String
  deriving DecidableEq, Repr

namespace Reference

/-- A character of a step's name in a placeholder. -/
def isNameChar (c : Char) : Bool :=
  ('A' ≤ c && c ≤ 'Z') || ('a' ≤ c && c ≤ 'z') || ('0' ≤ c && c ≤ '9') || c == '_' || c == '-'

/-- A character of an output with its path in a placeholder. -/
def isOutputChar (c : Char) : Bool :=
  isNameChar c || c == '.'

/-- A character of a text, or a placeholder in it. -/
inductive Piece where
  /-- A character that belongs to no placeholder. -/
  | char (c : Char)
  /-- A placeholder. -/
  | placeholder (reference : Reference)
  deriving DecidableEq, Repr

/-- The characters of a placeholder. -/
def text (r : Reference) : List Char :=
  '\x7b' :: (r.step.toList ++ '.' :: (r.output.toList ++ ['\x7d']))

/-- The characters of a piece. -/
def Piece.text : Piece → List Char
  | .char c => [c]
  | .placeholder reference => reference.text

/-- The placeholder at the front of a text, and the number of characters after its opening brace. -/
def at? : List Char → Option (Reference × Nat)
  | '\x7b' :: cs =>
    let body := cs.takeWhile isOutputChar
    let step := body.takeWhile isNameChar
    match body.drop step.length, cs.drop body.length with
    | '.' :: output, '\x7d' :: _ =>
      if step.isEmpty || output.isEmpty then none
      else some (⟨String.ofList step, String.ofList output⟩, body.length + 1)
    | _, _ => none
  | _ => none

/-- The pieces of a text whose next `skip` characters belong to a placeholder that has been found.
-/
def piecesFrom : Nat → List Char → List Piece
  | _, [] => []
  | skip + 1, _ :: cs => piecesFrom skip cs
  | 0, c :: cs =>
    match at? (c :: cs) with
    | some (reference, length) => .placeholder reference :: piecesFrom length cs
    | none => .char c :: piecesFrom 0 cs

/-- The pieces of a text, placeholders taken from left to right. -/
def pieces (s : String) : List Piece :=
  piecesFrom 0 s.toList

/-- The placeholder that a piece is. -/
def Piece.reference? : Piece → Option Reference
  | .char _ => none
  | .placeholder reference => some reference

/-- The placeholders of a text, from left to right. -/
def ofText (s : String) : List Reference :=
  (pieces s).filterMap Piece.reference?

mutual

/-- The placeholders anywhere in a value: in its texts, in the items of lists and in the values of
maps, in order. Keys are not looked into. -/
def ofValue : Value → List Reference
  | .text s => ofText s
  | .number literal => ofText literal
  | .list items => ofItems items
  | .map entries => ofEntries entries
  | _ => []

/-- The placeholders of items. -/
def ofItems : List Value → List Reference
  | [] => []
  | item :: items => ofValue item ++ ofItems items

/-- The placeholders of the values of entries. -/
def ofEntries : List (Value × Value) → List Reference
  | [] => []
  | (_, value) :: entries => ofValue value ++ ofEntries entries

end

end Reference

end Runbook
