import Runbook.Yaml.Cursor

/-!
# Plain scalars

A scalar without quotes ends at a comment, at a colon that ends a key, inside brackets at their
signs, and where a line is indented too little. A line end within it becomes a space, and of several
line ends all but the first are kept.
-/

namespace Runbook.Yaml.PlainText

/-- A sign that ends a plain scalar inside brackets. -/
def isFlowSign (c : Char) : Bool :=
  c == ',' || c == '?' || c == '[' || c == ']' || c == '\x7b' || c == '\x7d'

/-- A sign before which a colon inside brackets ends a key. -/
def endsFlowKey (c : Char) : Bool :=
  c == ',' || c == '[' || c == ']' || c == '\x7b' || c == '\x7d'

/-- The characters of a plain scalar up to a gap; `flow` tells whether it stands inside brackets. -/
def word (flow : Bool) : List Char → List Char
  | [] => []
  | c :: rest =>
    if isGap c then []
    else if c == ':' && endOr (fun d => isGap d || (flow && endsFlowKey d)) rest.head? then []
    else if flow && isFlowSign c then []
    else c :: word flow rest

/-- What stands between two words. -/
structure Gap where
  /-- What the gap counts as; nothing if the scalar ends here. -/
  text : List Char
  /-- Whether a line ends in the gap. -/
  endsLine : Bool
  /-- The place after the gap. -/
  after : Cursor

/-- The further line ends of a gap, up to the mark of a document's start or end. -/
def moreBreaks : Nat → Cursor → Option (List Char) × Cursor
  | 0, c => (some [], c)
  | fuel + 1, c =>
    let c := c.skipSpaces
    match c.lineBreak? with
    | none => (some [], c)
    | some (b, next) =>
      if next.atDocumentMark then (none, next)
      else
        let (breaks, last) := moreBreaks fuel next
        (breaks.map (b :: ·), last)

/-- What a gap with the given line ends counts as. -/
def folded (first : Char) (breaks : List Char) : List Char :=
  (if first != '\n' then [first] else if breaks.isEmpty then [' '] else []) ++ breaks

/-- The gap at a place. -/
def gap (c : Cursor) : Gap :=
  let spaces := c.run (· == ' ')
  let c := c.skipSpaces
  match c.lineBreak? with
  | none => ⟨spaces, false, c⟩
  | some (b, next) =>
    if next.atDocumentMark then ⟨[], true, next⟩
    else
      match moreBreaks (next.rest.length + 1) next with
      | (none, last) => ⟨[], true, last⟩
      | (some breaks, last) => ⟨folded b breaks, true, last⟩

/-- A plain scalar that has been read. -/
structure Reading where
  /-- The characters. -/
  text : List Char
  /-- Whether a line ends in the gap after the scalar. -/
  endsLine : Bool
  /-- The place after the scalar and the gap. -/
  after : Cursor

/-- Reads a plain scalar from a word on; `between` stands before the word. Lines after the first
have to be indented by `indent` characters. -/
def readFrom (flow : Bool) (indent : Int) : Nat → List Char → Bool → Cursor → Reading
  | 0, _, endsLine, c => ⟨[], endsLine, c⟩
  | fuel + 1, between, endsLine, c =>
    if c.current == some '#' then ⟨[], endsLine, c⟩
    else
      let chars := word flow c.rest
      if chars.isEmpty then ⟨[], endsLine, c⟩
      else
        let g := gap (c.skip chars.length)
        -- A gap before a comment or a line indented too little is no part of the scalar.
        if g.text.isEmpty || g.after.current == some '#' ||
            (!flow && (g.after.column : Int) < indent) then
          ⟨between ++ chars, g.endsLine, g.after⟩
        else
          let more := readFrom flow indent fuel g.text g.endsLine g.after
          ⟨between ++ chars ++ more.text, more.endsLine, more.after⟩

/-- Reads the plain scalar at a place. -/
def read (flow : Bool) (indent : Int) (c : Cursor) : Reading :=
  readFrom flow indent (c.rest.length + 1) [] false c

end Runbook.Yaml.PlainText
