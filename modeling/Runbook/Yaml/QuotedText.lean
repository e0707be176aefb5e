import Runbook.Text.Digit
import Runbook.Text.Surrogate
import Runbook.Yaml.Cursor
import Runbook.Yaml.Fault

/-!
# Quoted scalars

Between single quotes only the quote itself is written twice; between double quotes a backslash
begins an escape. A line end becomes a space, and of several line ends all but the first are kept.
-/

namespace Runbook.Yaml.QuotedText

/-- The character that a one-letter escape stands for. -/
def escape? (c : Char) : Option Char :=
  if c = '0' then some '\x00'
  else if c = 'a' then some '\x07'
  else if c = 'b' then some '\x08'
  else if c = 't' ∨ c = '\t' then some '\t'
  else if c = 'n' then some '\n'
  else if c = 'v' then some '\x0b'
  else if c = 'f' then some '\x0c'
  else if c = 'r' then some '\r'
  else if c = 'e' then some '\x1b'
  else if c = ' ' then some ' '
  else if c = '"' then some '"'
  else if c = '\\' then some '\\'
  else if c = '/' then some '/'
  else if c = 'N' then some '\x85'
  else if c = '_' then some '\u00a0'
  else if c = 'L' then some '\u2028'
  else if c = 'P' then some '\u2029'
  else none

/-- How many hexadecimal digits follow the letter of an escape by number. -/
def escapeWidth? (c : Char) : Option Nat :=
  if c = 'x' then some 2 else if c = 'u' then some 4 else if c = 'U' then some 8 else none

/-- The number that hexadecimal digits denote, if there are as many as asked for. -/
def hexNumber? (width : Nat) (cs : List Char) : Option Nat :=
  if cs.length < width then none
  else
    (cs.take width).foldl
      (fun n c => n.bind fun n => (Text.hexValue? c).map fun d => n * 16 + d) (some 0)

/-- The character of a code, which may be half of a pair. -/
def charOfCode (code : Nat) : Except Fault Char :=
  if Nat.pow 2 31 ≤ code then .error .codeTooLarge
  else if 0x110000 ≤ code then .error .noCharacter
  else .ok (Text.charOfCode code)

/-- The line ends from a place on, with the spaces and tabs around them skipped. -/
def breaks : Nat → Cursor → Except Fault (List Char × Cursor)
  | 0, c => .ok ([], c)
  | fuel + 1, c =>
    if c.atDocumentMark then .error .malformed
    else
      let c := c.skipRun fun ch => ch == ' ' || ch == '\t'
      match c.lineBreak? with
      | none => .ok ([], c)
      | some (b, next) =>
        match breaks fuel next with
        | .error f => .error f
        | .ok (more, last) => .ok (b :: more, last)

/-- The gap at a place: spaces and tabs, or line ends. -/
def gap (c : Cursor) : Except Fault (List Char × Cursor) :=
  let spaces := c.run fun ch => ch == ' ' || ch == '\t'
  let c := c.skip spaces.length
  match c.current, c.lineBreak? with
  | none, _ => .error .malformed
  | some _, none => .ok (spaces, c)
  | some _, some (b, next) =>
    match breaks (next.rest.length + 1) next with
    | .error f => .error f
    | .ok (more, last) =>
      let first := if b != '\n' then [b] else if more.isEmpty then [' '] else []
      .ok (first ++ more, last)

/-- What an escape stands for; the place is the one after the backslash. -/
def escape (c : Cursor) : Except Fault (List Char × Cursor) :=
  match c.rest with
  | [] => .error .malformed
  | ch :: digits =>
    match escape? ch, escapeWidth? ch with
    | some r, _ => .ok ([r], c.step)
    | none, some width =>
      match hexNumber? width digits with
      | none => .error .malformed
      | some code =>
        match charOfCode code with
        | .error f => .error f
        | .ok r => .ok ([r], c.skip (width + 1))
    | none, none =>
      -- An escaped line end leaves nothing but the line ends after it.
      match c.lineBreak? with
      | some (_, next) => breaks (next.rest.length + 1) next
      | none => .error .malformed

/-- Reads a quoted scalar from a place inside it to the place after the closing quote. -/
def readFrom (double : Bool) : Nat → Cursor → Except Fault (List Char × Cursor)
  | 0, _ => .error .malformed
  | fuel + 1, c =>
    let continueWith (chars : List Char) (next : Cursor) : Except Fault (List Char × Cursor) :=
      match readFrom double fuel next with
      | .error f => .error f
      | .ok (more, last) => .ok (chars ++ more, last)
    match c.rest with
    | [] => .error .malformed
    | ch :: rest =>
      if isGap ch then
        match gap c with
        | .error f => .error f
        | .ok (chars, next) => continueWith chars next
      else if double then
        if ch == '"' then .ok ([], c.step)
        else if ch == '\\' then
          match escape c.step with
          | .error f => .error f
          | .ok (chars, next) => continueWith chars next
        else continueWith [ch] c.step
      else if ch == '\x27' then
        if rest.head? == some '\x27' then continueWith ['\x27'] (c.skip 2)
        else .ok ([], c.step)
      else continueWith [ch] c.step

/-- Reads the quoted scalar whose opening quote stands at a place. -/
def read (double : Bool) (c : Cursor) : Except Fault (List Char × Cursor) :=
  readFrom double (c.rest.length + 1) c.step

end Runbook.Yaml.QuotedText
