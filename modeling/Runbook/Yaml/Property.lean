import Runbook.Number.Integer
import Runbook.Text.Split
import Runbook.Text.Utf8
import Runbook.Yaml.Cursor
import Runbook.Yaml.Token

/-!
# Names, tags and directives

The names of anchors, the tags of nodes, which a handle may shorten, and the lines of directions
before a document.
-/

namespace Runbook.Yaml.Property

/-- A character of a name: an ASCII letter or digit, a hyphen or an underscore. -/
def isNameChar (c : Char) : Bool :=
  ('0' ≤ c && c ≤ '9') || ('A' ≤ c && c ≤ 'Z') || ('a' ≤ c && c ≤ 'z') || c == '-' || c == '_'

/-- A character of a tag's suffix; a percent sign begins an escape. -/
def isSuffixChar (c : Char) : Bool :=
  isNameChar c || ";/?:@&=+$,.!~*'()[]%".toList.contains c

/-- A character that may follow the name of an anchor. -/
def mayFollowName (c : Char) : Bool :=
  isGap c || "?:,]\x7d%@\x60".toList.contains c

/-- Reads the name of an anchor after its sign, which stands at a place. -/
def name (c : Cursor) : Except Fault (String × Cursor) :=
  let c := c.step
  let chars := c.run isNameChar
  let next := c.skip chars.length
  if chars.isEmpty || !endOr mayFollowName next.current then .error .malformed
  else .ok (String.ofList chars, next)

/-- Reads escaped octets, each a percent sign and two hexadecimal digits. -/
def octets : List Char → Except Fault (List UInt8)
  | '%' :: a :: b :: rest =>
    match Text.hexValue? a, Text.hexValue? b with
    | some x, some y => (octets rest).map ((x * 16 + y).toUInt8 :: ·)
    | _, _ => .error .malformed
  | '%' :: _ => .error .malformed
  | _ => .ok []

/-- The characters of a suffix with its escapes resolved; octets next to each other make up
characters together. The next `skip` characters belong to escapes that are done with. -/
def unescape : Nat → List Char → Except Fault (List Char)
  | _, [] => .ok []
  | skip + 1, _ :: rest => unescape skip rest
  | 0, '%' :: rest =>
    match octets ('%' :: rest) with
    | .error f => .error f
    | .ok bs =>
      match Text.Utf8.decode bs with
      | .error _ => .error .malformed
      | .ok s => (unescape (3 * bs.length - 1) rest).map (s.toList ++ ·)
  | 0, c :: rest => (unescape 0 rest).map (c :: ·)

/-- Reads the suffix of a tag, which is not empty. -/
def suffix (c : Cursor) : Except Fault (String × Cursor) :=
  let chars := c.run isSuffixChar
  if chars.isEmpty then .error .malformed
  else (unescape 0 chars).map fun text => (String.ofList text, c.skip chars.length)

/-- Reads a handle, which begins with an exclamation mark: this alone before a space, or a name
after it that ends in another one. -/
def handle (c : Cursor) : Except Fault (String × Cursor) :=
  match c.rest with
  | '!' :: rest =>
    if rest.head? == some ' ' then .ok ("!", c.step)
    else
      let chars := rest.takeWhile isNameChar
      if rest[chars.length]? == some '!' then
        .ok (String.ofList ('!' :: (chars ++ ['!'])), c.skip (chars.length + 2))
      else .error .malformed
  | _ => .error .malformed

/-- Reads a tag with a handle, of which the second exclamation mark is still to come if there is one
before the next space. -/
def shortTag (c : Cursor) : Except Fault (TagText × Cursor) := do
  let ahead := (c.rest.drop 1).takeWhile (!isSpaceOrBreak ·)
  let (handle, c) ← if ahead.contains '!' then handle c else pure ("!", c.step)
  let (suffix, c) ← suffix c
  return (⟨some handle, suffix⟩, c)

/-- Reads a tag that is written in full between angle brackets. -/
def fullTag (c : Cursor) : Except Fault (TagText × Cursor) := do
  let (suffix, c) ← suffix (c.skip 2)
  if c.current == some '>' then return (⟨none, suffix⟩, c.step)
  throw .malformed

/-- Reads the tag whose exclamation mark stands at a place. -/
def tag (c : Cursor) : Except Fault (TagText × Cursor) := do
  let (tag, c) ←
    if c.peek 1 == some '<' then fullTag c
    else if endOr isGap (c.peek 1) then pure (⟨none, "!"⟩, c.step)
    else shortTag c
  if endOr isSpaceOrBreak c.current then return (tag, c)
  throw .malformed

/-- Reads a number of a version. -/
def versionNumber (c : Cursor) : Except Fault (Nat × Cursor) :=
  let chars := c.run Text.isAsciiDigit
  if chars.isEmpty then .error .malformed
  else
    match Number.readInteger 10 (String.ofList chars) with
    | .error f => .error (.integer f)
    | .ok n => .ok (n.toNat, c.skip chars.length)

/-- Reads what a directive about the version tells. -/
def version (c : Cursor) : Except Fault (Directive × Cursor) := do
  let (major, c) ← versionNumber c.skipSpaces
  if c.current != some '.' then throw .malformed
  let (minor, c) ← versionNumber c.step
  if endOr isSpaceOrBreak c.current then return (.version major minor, c)
  throw .malformed

/-- Reads what a directive about a handle tells. -/
def handleMeaning (c : Cursor) : Except Fault (Directive × Cursor) := do
  let (handle, c) ← handle c.skipSpaces
  if c.current != some ' ' then throw .malformed
  let (expansion, c) ← suffix c.skipSpaces
  if endOr isSpaceOrBreak c.current then return (.handle handle expansion, c)
  throw .malformed

/-- Reads the directive whose percent sign stands at a place, with its line. -/
def directive (c : Cursor) : Except Fault (Directive × Cursor) := do
  let c := c.step
  let chars := c.run isNameChar
  let c := c.skip chars.length
  if chars.isEmpty || !endOr isSpaceOrBreak c.current then throw .malformed
  let (directive, c) ←
    if chars == "YAML".toList then version c
    else if chars == "TAG".toList then handleMeaning c
    else pure (.other, c.skipRun (!isBreak ·))
  match c.skipIgnoredLine? with
  | some c => return (directive, c)
  | none => throw .malformed

end Runbook.Yaml.Property
