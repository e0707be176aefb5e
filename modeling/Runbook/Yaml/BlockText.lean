import Runbook.Yaml.Cursor
import Runbook.Yaml.Fault

/-!
# Block scalars

A block scalar takes the lines that are indented more than what it belongs to. Its header tells
whether lines are folded into one, what becomes of the line ends at its end, and perhaps how much
the lines are indented; otherwise the first line that is not empty tells that.
-/

namespace Runbook.Yaml.BlockText

/-- What becomes of the line ends at the end of a block scalar. -/
inductive Chomping where
  /-- One is kept. -/
  | clip
  /-- None is kept. -/
  | strip
  /-- All are kept. -/
  | keep
  deriving DecidableEq, Repr

/-- What the header of a block scalar tells. -/
structure Header where
  /-- What becomes of the line ends at the end. -/
  chomping : Chomping
  /-- How much more the lines are indented, if the header tells. -/
  increment : Option Nat
  deriving DecidableEq, Repr

/-- The chomping that a sign stands for. -/
def chomping? : Option Char → Option Chomping
  | some '+' => some .keep
  | some '-' => some .strip
  | _ => none

/-- The number that an indentation sign stands for. -/
def increment? : Option Char → Option Nat
  | some c => if '0' ≤ c ∧ c ≤ '9' then some (c.toNat - 48) else none
  | none => none

/-- Reads the signs of a header, in either order, and the rest of its line. -/
def header (c : Cursor) : Except Fault (Header × Cursor) :=
  let (chomping, increment, c) :=
    match chomping? c.current with
    | some chomping =>
      let c := c.step
      match increment? c.current with
      | some n => (chomping, some n, c.step)
      | none => (chomping, none, c)
    | none =>
      match increment? c.current with
      | some n =>
        let c := c.step
        match chomping? c.current with
        | some chomping => (chomping, some n, c.step)
        | none => (.clip, some n, c)
      | none => (.clip, none, c)
  if increment == some 0 || !endOr isSpaceOrBreak c.current then .error .malformed
  else
    match c.skipIgnoredLine? with
    | none => .error .malformed
    | some c => .ok (⟨chomping, increment⟩, c)

/-- The place after the spaces up to a column. -/
def skipIndent (indent : Nat) (c : Cursor) : Cursor :=
  c.skip (min (indent - c.column) (c.run (· == ' ')).length)

/-- The ends of empty lines before a line of the scalar, and the place where that line begins. -/
def breaks (indent : Nat) : Nat → Cursor → List Char × Cursor
  | 0, c => ([], c)
  | fuel + 1, c =>
    let c := skipIndent indent c
    match c.lineBreak? with
    | none => ([], c)
    | some (b, next) =>
      let (more, last) := breaks indent fuel next
      (b :: more, last)

/-- The ends of the empty lines at the front, the greatest column that spaces reach there, and the
place where the first other line begins. -/
def leading : Nat → Nat → Cursor → List Char × Nat × Cursor
  | 0, widest, c => ([], widest, c)
  | fuel + 1, widest, c =>
    let c := c.skipSpaces
    let widest := max widest c.column
    match c.lineBreak? with
    | none => ([], widest, c)
    | some (b, next) =>
      let (more, widest, last) := leading fuel widest next
      (b :: more, widest, last)

/-- The end of a line as characters; nothing at the end of the text. -/
def lineEnd (c : Cursor) : List Char × Cursor :=
  match c.lineBreak? with
  | some (b, next) => ([b], next)
  | none => ([], c)

/-- Whether a place has a space or a tab. -/
def isIndented (c : Cursor) : Bool :=
  holds (fun ch => ch == ' ' || ch == '\t') c.current

/-- Reads the lines of a scalar. `before` are the ends of empty lines before the place; the result
tells the characters, the end of the last line, and the ends of empty lines after it. -/
def lines (fold : Bool) (indent : Nat) :
    Nat → List Char → Cursor → List Char × List Char × List Char × Cursor
  | 0, before, c => ([], [], before, c)
  | fuel + 1, before, c =>
    let chars := c.run (!isBreak ·)
    let (lineEnd, next) := lineEnd (c.skip chars.length)
    let (empty, next) := breaks indent (next.rest.length + 1) next
    if next.column == indent && next.current.isSome then
      let join :=
        -- Lines that are indented further keep their line ends, on both sides.
        if fold && lineEnd == ['\n'] && !isIndented c && !isIndented next then
          if empty.isEmpty then [' '] else []
        else lineEnd
      let (more, last, after, c) := lines fold indent fuel empty next
      (before ++ chars ++ join ++ more, last, after, c)
    else (before ++ chars, lineEnd, empty, next)

/-- Reads the block scalar whose sign stands at a place. `outer` is the column of what the scalar
belongs to. -/
def read (fold : Bool) (outer : Int) (c : Cursor) : Except Fault (List Char × Cursor) :=
  match header c.step with
  | .error f => .error f
  | .ok (h, c) =>
    let least := (max (outer + 1) 1).toNat
    let fuel := c.rest.length + 1
    -- Without a number the lines up to the first that is not empty tell the indentation.
    let (indent, before, c) :=
      match h.increment with
      | none =>
        let (before, widest, c) := leading fuel 0 c
        (max least widest, before, c)
      | some n =>
        let indent := least + n - 1
        let (before, c) := breaks indent fuel c
        (indent, before, c)
    let (chars, last, after, c) :=
      if c.column == indent && c.current.isSome then lines fold indent fuel before c
      else ([], [], before, c)
    let tail := match h.chomping with
      | .strip => []
      | .clip => last
      | .keep => last ++ after
    .ok (chars ++ tail, c)

end Runbook.Yaml.BlockText
