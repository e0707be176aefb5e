/-!
# Places in a text

A cursor is a place in a text: the characters from there on, and the line and column. Lines end at
line feeds, carriage returns, and three characters beyond ASCII.
-/

namespace Runbook.Yaml

/-- A character that ends a line. -/
def isBreak (c : Char) : Bool :=
  c == '\n' || c == '\r' || c == '\x85' || c == '\u2028' || c == '\u2029'

/-- A space, a tab or a character that ends a line. -/
def isGap (c : Char) : Bool :=
  c == ' ' || c == '\t' || isBreak c

/-- A space or a character that ends a line. -/
def isSpaceOrBreak (c : Char) : Bool :=
  c == ' ' || isBreak c

/-- Whether a place is the end of the text or has a character with a property. -/
def endOr (p : Char → Bool) : Option Char → Bool
  | none => true
  | some c => p c

/-- Whether a place has a character with a property. -/
def holds (p : Char → Bool) : Option Char → Bool
  | none => false
  | some c => p c

/-- A place in a text. -/
structure Cursor where
  /-- The characters from the place on. -/
  rest : List Char
  /-- How many characters stand before it. -/
  index : Nat := 0
  /-- How many lines end before it. -/
  line : Nat := 0
  /-- How many characters of its line stand before it; a byte order mark does not count. -/
  column : Nat := 0
  deriving Repr, Inhabited

namespace Cursor

/-- The character that stands a number of characters after a place. -/
def peek (c : Cursor) (count : Nat) : Option Char :=
  c.rest[count]?

/-- The character at a place. -/
def current (c : Cursor) : Option Char :=
  c.rest.head?

/-- The place after the character at a place. -/
def step (c : Cursor) : Cursor :=
  match c.rest with
  | [] => c
  | ch :: rest =>
    if isBreak ch && !(ch == '\r' && rest.head? == some '\n') then
      ⟨rest, c.index + 1, c.line + 1, 0⟩
    else ⟨rest, c.index + 1, c.line, if ch == '\ufeff' then c.column else c.column + 1⟩

/-- The place after a number of characters. -/
def skip : Nat → Cursor → Cursor
  | 0, c => c
  | count + 1, c => skip count c.step

/-- The characters with a property that stand in a row from a place on. -/
def run (c : Cursor) (p : Char → Bool) : List Char :=
  c.rest.takeWhile p

/-- The place after the characters with a property that stand in a row. -/
def skipRun (c : Cursor) (p : Char → Bool) : Cursor :=
  c.skip (c.run p).length

/-- The place after the spaces. -/
def skipSpaces (c : Cursor) : Cursor :=
  c.skipRun (· == ' ')

/-- The end of the line, if it is here: the character that it counts as, and the place after it. -/
def lineBreak? (c : Cursor) : Option (Char × Cursor) :=
  match c.rest with
  | '\r' :: '\n' :: _ => some ('\n', c.skip 2)
  | ch :: _ =>
    if ch == '\u2028' || ch == '\u2029' then some (ch, c.step)
    else if isBreak ch then some ('\n', c.step)
    else none
  | [] => none

/-- The place after the end of the line, if it is here. -/
def skipBreak (c : Cursor) : Cursor :=
  match c.lineBreak? with
  | some (_, next) => next
  | none => c

/-- Whether the three characters of a mark stand here, and then a gap or the end. -/
def hasMark (c : Cursor) (mark : List Char) : Bool :=
  mark.isPrefixOf c.rest && endOr isGap (c.peek mark.length)

/-- Whether the mark of a document's start or end stands here. -/
def atDocumentMark (c : Cursor) : Bool :=
  c.hasMark ['-', '-', '-'] || c.hasMark ['.', '.', '.']

/-- The place after a comment, if one begins here. -/
def skipComment (c : Cursor) : Cursor :=
  if c.current == some '#' then c.skipRun (!isBreak ·) else c

/-- The place after spaces and a comment, if nothing else is left on the line. -/
def skipIgnoredLine? (c : Cursor) : Option Cursor :=
  let c := c.skipSpaces.skipComment
  if endOr isBreak c.current then some c.skipBreak else none

end Cursor

end Runbook.Yaml
