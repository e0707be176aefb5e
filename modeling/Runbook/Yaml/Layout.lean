import Runbook.Yaml.BlockText
import Runbook.Yaml.PlainText
import Runbook.Yaml.Property
import Runbook.Yaml.QuotedText

/-!
# From text to tokens

The tokens of a document are found from left to right. Two things make that more than cutting the
text: indentation opens and closes block collections, and a colon makes a key of what stands before
it on the same line. A key that is found so is marked, and its token put in front of it at the end.
-/

namespace Runbook.Yaml

/-- A place where something begins that a colon may yet make a key. -/
structure KeyPlace where
  /-- The number of the token that begins there. -/
  token : Nat
  /-- Whether nothing but a key may stand there. -/
  required : Bool
  /-- How many characters stand before it. -/
  index : Nat
  /-- The line. -/
  line : Nat
  /-- The column. -/
  column : Nat
  deriving DecidableEq, Repr

/-- A key that a colon has made of the token with a number, and whether it is the first of a map. -/
structure KeyMark where
  /-- The number of the token. -/
  token : Nat
  /-- Whether a map begins here. -/
  startsMapping : Bool
  deriving DecidableEq, Repr

/-- How far the tokens of a document have been found. -/
structure Layout where
  /-- The place in the text. -/
  cursor : Cursor
  /-- The tokens so far, the last one first. -/
  tokens : List Token := []
  /-- How many tokens there are so far. -/
  count : Nat := 0
  /-- The keys that colons have made. -/
  marks : List KeyMark := []
  /-- How many brackets and braces are open. -/
  depth : Nat := 0
  /-- The column of the innermost block collection; before all columns if there is none. -/
  indent : Int := -1
  /-- The columns of the block collections around it. -/
  outer : List Int := []
  /-- Whether a key may begin here. -/
  keyAllowed : Bool := true
  /-- The places that may yet turn out to be keys, by the brackets that are open there. -/
  places : List (Nat × KeyPlace) := []

namespace Layout

/-- The longest key, in characters, that a colon makes. -/
def maxKey : Nat := 1024

/-- Adds a token. -/
def push (l : Layout) (t : Token) : Layout :=
  { l with tokens := t :: l.tokens, count := l.count + 1 }

/-- Adds a token and goes on at another place. -/
def pushAt (l : Layout) (t : Token) (next : Cursor) : Layout :=
  { l.push t with cursor := next }

/-- Whether the place is inside brackets or braces. -/
def inFlow (l : Layout) : Bool :=
  l.depth != 0

/-- Forgets the place of a key at the present depth, unless a key has to stand there. -/
def dropPlace (l : Layout) : Except Fault Layout :=
  match l.places.lookup l.depth with
  | none => .ok l
  | some place =>
    if place.required then .error .malformed
    else .ok { l with places := l.places.filter fun (depth, _) => depth != l.depth }

/-- Remembers that a key may begin here. -/
def savePlace (l : Layout) : Except Fault Layout :=
  if l.keyAllowed then
    match l.dropPlace with
    | .error f => .error f
    | .ok l =>
      -- In the column of a block collection nothing but a key may begin.
      let place : KeyPlace :=
        { token := l.count
          required := !l.inFlow && l.indent == l.cursor.column
          index := l.cursor.index
          line := l.cursor.line
          column := l.cursor.column }
      .ok { l with places := (l.depth, place) :: l.places }
  else .ok l

/-- Whether a place is too far back for a colon here to make a key of it. -/
def isStale (c : Cursor) (p : KeyPlace) : Bool :=
  p.line != c.line || maxKey < c.index - p.index

/-- Forgets the places that are too far back. -/
def dropStale (l : Layout) : Except Fault Layout :=
  if l.places.any fun (_, p) => isStale l.cursor p && p.required then .error .malformed
  else .ok { l with places := l.places.filter fun (_, p) => !isStale l.cursor p }

/-- Closes the block collections that stand further right than a column. -/
def closeTo (column : Int) : List Int → Layout → Layout
  | [], l => l
  | indent :: outer, l =>
    if column < l.indent then
      closeTo column outer { l.push .blockEnd with indent := indent, outer := outer }
    else l

/-- Closes the block collections that stand further right than a column, outside brackets. -/
def unwind (l : Layout) (column : Int) : Layout :=
  if l.inFlow then l else closeTo column l.outer l

/-- Opens a block collection at a column, unless one stands there or further right. -/
def openAt (l : Layout) (column : Nat) : Option Layout :=
  if l.indent < column then some { l with indent := column, outer := l.indent :: l.outer }
  else none

/-- Opens a block collection here with a token, unless one stands here or further right. -/
def openHere (l : Layout) (t : Token) : Layout :=
  match l.openAt l.cursor.column with
  | some l => l.push t
  | none => l

/-- Skips spaces, comments and line ends; a key may begin on a new line outside brackets. -/
def skipGaps : Nat → Layout → Layout
  | 0, l => l
  | fuel + 1, l =>
    let c := l.cursor.skipSpaces.skipComment
    match c.lineBreak? with
    | none => { l with cursor := c }
    | some (_, next) =>
      skipGaps fuel { l with cursor := next, keyAllowed := l.keyAllowed || !l.inFlow }

/-- Goes to the next token, past a byte order mark at the front of the text. The fuel is that of
`skipGaps`. -/
def skipToToken (fuel : Nat) (l : Layout) : Layout :=
  let c := if l.cursor.index == 0 && l.cursor.current == some '\ufeff' then l.cursor.step
    else l.cursor
  skipGaps fuel { l with cursor := c }

/-- A directive, or the mark of a document's start or end, closes all block collections. -/
def documentToken (l : Layout) (t : Token) (next : Cursor) : Except Fault Layout := do
  let l ← (l.unwind (-1)).dropPlace
  return { l.pushAt t next with keyAllowed := false }

/-- An opening bracket or brace. -/
def flowStart (l : Layout) (t : Token) : Except Fault Layout := do
  let l ← l.savePlace
  return { l.pushAt t l.cursor.step with depth := l.depth + 1, keyAllowed := true }

/-- A closing bracket or brace. -/
def flowEnd (l : Layout) (t : Token) : Except Fault Layout := do
  let l ← l.dropPlace
  return { l.pushAt t l.cursor.step with depth := l.depth - 1, keyAllowed := false }

/-- A comma inside brackets. -/
def flowEntry (l : Layout) : Except Fault Layout := do
  let l ← l.dropPlace
  return { l.pushAt .flowEntry l.cursor.step with keyAllowed := true }

/-- A dash before an item. -/
def blockEntry (l : Layout) : Except Fault Layout := do
  if !l.inFlow && !l.keyAllowed then throw .malformed
  let l := if l.inFlow then l else l.openHere .blockSequenceStart
  let l ← l.dropPlace
  return { l.pushAt .blockEntry l.cursor.step with keyAllowed := true }

/-- A question mark before a key. -/
def keyEntry (l : Layout) : Except Fault Layout := do
  if !l.inFlow && !l.keyAllowed then throw .malformed
  let l := if l.inFlow then l else l.openHere .blockMappingStart
  let l ← l.dropPlace
  return { l.pushAt .key l.cursor.step with keyAllowed := !l.inFlow }

/-- A colon after a key that is told by it. -/
def simpleValue (l : Layout) (p : KeyPlace) : Layout :=
  let l := { l with places := l.places.filter fun (depth, _) => depth != l.depth }
  -- The map began at its key, whose token stands already: it is woven in later.
  let (l, starts) :=
    if l.inFlow then (l, false)
    else
      match l.openAt p.column with
      | some l => (l, true)
      | none => (l, false)
  { l.pushAt .value l.cursor.step with
    marks := ⟨p.token, starts⟩ :: l.marks
    keyAllowed := false }

/-- A colon after a key with a question mark, or without a key. -/
def complexValue (l : Layout) : Except Fault Layout := do
  if !l.inFlow && !l.keyAllowed then throw .malformed
  let l := if l.inFlow then l else l.openHere .blockMappingStart
  let l ← l.dropPlace
  return { l.pushAt .value l.cursor.step with keyAllowed := !l.inFlow }

/-- A colon before a value. -/
def valueEntry (l : Layout) : Except Fault Layout :=
  match l.places.lookup l.depth with
  | some place => .ok (l.simpleValue place)
  | none => l.complexValue

/-- A token that may begin a key and after which none may begin. -/
def keyPart (l : Layout) (read : Cursor → Except Fault (Token × Cursor)) : Except Fault Layout := do
  let l ← l.savePlace
  let (t, next) ← read l.cursor
  return { l.pushAt t next with keyAllowed := false }

/-- A scalar in quotes. -/
def quotedScalar (l : Layout) (double : Bool) : Except Fault Layout :=
  l.keyPart fun c =>
    (QuotedText.read double c).map fun (chars, next) => (.scalar (String.ofList chars) false, next)

/-- A plain scalar. A key may begin after it if a line ends there. -/
def plainScalar (l : Layout) : Except Fault Layout := do
  let l ← l.savePlace
  let reading := PlainText.read l.inFlow (l.indent + 1) l.cursor
  let token := Token.scalar (String.ofList reading.text) true
  return { l.pushAt token reading.after with keyAllowed := reading.endsLine }

/-- A block scalar. A key may begin after it. -/
def blockScalar (l : Layout) (fold : Bool) : Except Fault Layout := do
  let l ← l.dropPlace
  let (chars, next) ← BlockText.read fold l.indent l.cursor
  return { l.pushAt (.scalar (String.ofList chars) false) next with keyAllowed := true }

/-- A character that begins no plain scalar, at least if a gap follows. -/
def isSign (c : Char) : Bool :=
  "-?:,[]\x7b\x7d#&*!|>'\"%@\x60".toList.contains c

/-- Whether a plain scalar begins with a character. -/
def beginsPlain (l : Layout) (c : Char) : Bool :=
  !(isGap c || isSign c) ||
    (!endOr isGap (l.cursor.peek 1) && (c == '-' || (!l.inFlow && (c == '?' || c == ':'))))

/-- Finds the next token, which begins with a character. -/
def token (l : Layout) (ch : Char) : Except Fault Layout :=
  let c := l.cursor
  let beforeGap := endOr isGap (c.peek 1)
  if ch == '%' && c.column == 0 then do
    let (directive, next) ← Property.directive c
    l.documentToken (.directive directive) next
  else if c.column == 0 && c.hasMark ['-', '-', '-'] then l.documentToken .documentStart (c.skip 3)
  else if c.column == 0 && c.hasMark ['.', '.', '.'] then l.documentToken .documentEnd (c.skip 3)
  else if ch == '[' then l.flowStart .flowSequenceStart
  else if ch == '\x7b' then l.flowStart .flowMappingStart
  else if ch == ']' then l.flowEnd .flowSequenceEnd
  else if ch == '\x7d' then l.flowEnd .flowMappingEnd
  else if ch == ',' then l.flowEntry
  -- A dash, question mark or colon without a gap behind it may begin a plain scalar.
  else if ch == '-' && beforeGap then l.blockEntry
  else if ch == '?' && (l.inFlow || beforeGap) then l.keyEntry
  else if ch == ':' && (l.inFlow || beforeGap) then l.valueEntry
  else if ch == '*' then
    l.keyPart fun c => (Property.name c).map fun (name, next) => (.alias name, next)
  else if ch == '&' then
    l.keyPart fun c => (Property.name c).map fun (name, next) => (.anchor name, next)
  else if ch == '!' then
    l.keyPart fun c => (Property.tag c).map fun (tag, next) => (.tag tag, next)
  else if ch == '|' && !l.inFlow then l.blockScalar false
  else if ch == '>' && !l.inFlow then l.blockScalar true
  else if ch == '\x27' then l.quotedScalar false
  else if ch == '"' then l.quotedScalar true
  else if l.beginsPlain ch then l.plainScalar
  else .error .malformed

/-- The number of the first token that is not settled yet: a colon may still put a key in front of
it. Whoever reads the tokens gets no further before more of them are found. -/
def waiting (l : Layout) : Nat :=
  l.places.foldl (fun n (_, p) => min n p.token) l.count

/-- Puts a fault in the place of the token with a number and of all after it. -/
def fail (l : Layout) (number : Nat) (f : Fault) : Layout :=
  { l with tokens := .fault f :: l.tokens.drop (l.count - number), count := number + 1 }

/-- Finds tokens to the end of the text, or to the first fault. Every token but the last takes up a
character or more, so that fuel for one more than the characters is enough, also to skip gaps. -/
def scan : Nat → Layout → Layout
  | 0, l => l
  | fuel + 1, l =>
    -- A fault is a token, so that whoever reads the tokens before it may find another one first.
    match l.dropStale with
    | .error f => l.fail l.waiting f
    | .ok l =>
      let reader := l.waiting
      match (l.skipToToken fuel).dropStale with
      | .error f => l.fail reader f
      | .ok l =>
        let l := l.unwind l.cursor.column
        match l.cursor.current with
        | none =>
          match (l.unwind (-1)).dropPlace with
          | .error f => l.fail reader f
          | .ok l => l
        | some ch =>
          match l.token ch with
          | .error f => l.fail reader f
          | .ok l => scan fuel l

/-- Puts the tokens of keys in front of the tokens of which colons have made keys. The marks stand
in the order of their tokens, and `number` is the number of the first token. -/
def weave : List KeyMark → Nat → List Token → List Token
  | _, _, [] => []
  | [], _, ts => ts
  | mark :: marks, number, t :: ts =>
    if mark.token = number then
      let key := Token.key :: t :: weave marks (number + 1) ts
      if mark.startsMapping then .blockMappingStart :: key else key
    else t :: weave (mark :: marks) (number + 1) ts

end Layout

/-- The tokens of a text. -/
def Token.ofText (s : String) : List Token :=
  let cs := s.toList
  let l := Layout.scan (cs.length + 2) { cursor := { rest := cs } }
  Layout.weave (l.marks.mergeSort fun a b => a.token ≤ b.token) 0 l.tokens.reverse

end Runbook.Yaml
