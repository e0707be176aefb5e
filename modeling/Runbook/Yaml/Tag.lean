import Runbook.Text.Digit

/-!
# Tags

The types of nodes, and the type that a plain scalar has by its characters: `yes` is a truth value,
`0x1F` an integer, `1:30` a number of minutes and seconds, `2024-01-02` a day.
-/

namespace Runbook.Yaml

/-- The type of a node. -/
inductive Tag where
  /-- The null value. -/
  | null
  /-- A truth value. -/
  | bool
  /-- An integer. -/
  | integer
  /-- A number. -/
  | real
  /-- Octets, written in base 64. -/
  | binary
  /-- A day or time. -/
  | timestamp
  /-- A text. -/
  | text
  /-- A list. -/
  | sequence
  /-- A map. -/
  | mapping
  /-- A set. -/
  | set
  /-- A list of pairs. -/
  | pairs
  /-- As a key: the entries of the value are taken over. -/
  | merge
  /-- As a key: its value stands for the whole map where a scalar is called for. -/
  | value
  /-- A type that is not known. -/
  | other
  deriving DecidableEq, Repr

namespace Tag

/-- What the handle of the standard types stands for. -/
def standard : String := "tag:yaml.org,2002:"

/-- The types of the standard by their names after the handle. -/
def names : List (String × Tag) :=
  [("null", .null), ("bool", .bool), ("int", .integer), ("float", .real), ("binary", .binary),
   ("timestamp", .timestamp), ("str", .text), ("seq", .sequence), ("map", .mapping), ("set", .set),
   ("omap", .pairs), ("pairs", .pairs), ("merge", .merge), ("value", .value)]

/-- The type that a full tag names. -/
def ofText (s : String) : Tag :=
  match names.find? fun (name, _) => standard ++ name == s with
  | some (_, tag) => tag
  | none => .other

/-- Characters after a sign, if there is one. -/
def dropSign : List Char → List Char
  | c :: cs => if c == '+' || c == '-' then cs else c :: cs
  | [] => []

/-- A digit or an underscore. -/
def isDigitOr_ (c : Char) : Bool :=
  Text.isAsciiDigit c || c == '_'

/-- A digit and then digits and underscores, if the first digit has a property. -/
def isNumeral (first : Char → Bool) : List Char → Bool
  | [] => false
  | c :: cs => Text.isAsciiDigit c && first c && cs.all isDigitOr_

/-- The groups of characters between colons. -/
def groups (cs : List Char) : List (List Char) :=
  cs.foldr
    (fun c done => match done with
      | [] => if c == ':' then [[], []] else [[c]]
      | group :: rest => if c == ':' then [] :: group :: rest else (c :: group) :: rest)
    [[]]

/-- One or two digits of a number below sixty. -/
def isSixtieth : List Char → Bool
  | [a] => Text.isAsciiDigit a
  | [a, b] => '0' ≤ a && a ≤ '5' && Text.isAsciiDigit b
  | _ => false

/-- Whether characters are digit groups between colons, at least two, the first beginning with a
digit that has a property. -/
def isSexagesimal (first : Char → Bool) (cs : List Char) : Bool :=
  match groups cs with
  | head :: next :: rest => isNumeral first head && (next :: rest).all isSixtieth
  | _ => false

/-- Whether characters are an integer: in base 2, 8, 10 or 16, or in groups of base 60. -/
def isInteger (cs : List Char) : Bool :=
  let body := dropSign cs
  let based (mark : Char) (p : Char → Bool) : Bool :=
    match body with
    | '0' :: m :: digits => m == mark && !digits.isEmpty && digits.all p
    | _ => false
  let octal := match body with
    | '0' :: digits => !digits.isEmpty && digits.all fun c => ('0' ≤ c && c ≤ '7') || c == '_'
    | _ => false
  based 'b' (fun c => c == '0' || c == '1' || c == '_') || octal || body == ['0'] ||
    isNumeral (· != '0') body ||
    based 'x' (fun c => (Text.hexValue? c).isSome || c == '_') ||
    isSexagesimal (· != '0') body

/-- Whether characters are nothing, or an exponent with a sign. -/
def isExponent : List Char → Bool
  | [] => true
  | e :: sign :: digits =>
    (e == 'e' || e == 'E') && (sign == '+' || sign == '-') && !digits.isEmpty &&
      digits.all Text.isAsciiDigit
  | _ => false

/-- Whether characters are digits, a point, perhaps more digits and an exponent. -/
def isPointed (cs : List Char) : Bool :=
  let whole := cs.takeWhile isDigitOr_
  match cs.drop whole.length with
  | '.' :: rest => isNumeral (fun _ => true) whole && isExponent (rest.dropWhile isDigitOr_)
  | _ => false

/-- Whether characters are a point, digits and perhaps an exponent. -/
def isFraction : List Char → Bool
  | '.' :: rest =>
    isNumeral (fun _ => true) (rest.takeWhile isDigitOr_) && isExponent (rest.dropWhile isDigitOr_)
  | _ => false

/-- Whether characters are digit groups between colons, a point, and perhaps more digits. -/
def isPointedSexagesimal (cs : List Char) : Bool :=
  let whole := cs.takeWhile (· != '.')
  match cs.drop whole.length with
  | '.' :: rest => isSexagesimal (fun _ => true) whole && rest.all isDigitOr_
  | _ => false

/-- Whether characters are a number. -/
def isReal (cs : List Char) : Bool :=
  let body := dropSign cs
  isPointed body || isFraction cs || isPointedSexagesimal body ||
    [".inf", ".Inf", ".INF"].any (·.toList == body) || [".nan", ".NaN", ".NAN"].any (·.toList == cs)

/-- Whether characters are a truth value. -/
def isBool (cs : List Char) : Bool :=
  ["yes", "Yes", "YES", "no", "No", "NO", "true", "True", "TRUE", "false", "False", "FALSE", "on",
    "On", "ON", "off", "Off", "OFF"].any (·.toList == cs)

/-- Whether characters are a null value. -/
def isNull (cs : List Char) : Bool :=
  ["~", "null", "Null", "NULL", ""].any (·.toList == cs)

end Tag

/-- The fields of a day or time as they are written. -/
structure MomentText where
  /-- The digits of the year. -/
  year : List Char
  /-- The digits of the month. -/
  month : List Char
  /-- The digits of the day. -/
  day : List Char
  /-- The digits of hour, minute, second and fraction, if there is a time. -/
  clock : Option (List Char × List Char × List Char × List Char)
  /-- Whether the time is universal time. -/
  universal : Bool
  /-- The sign and the digits of hours and minutes of an offset. -/
  offset : Option (Bool × List Char × List Char)
  deriving DecidableEq, Repr

namespace MomentText

/-- One or two digits at the front, and the rest. -/
def shortNumber? : List Char → Option (List Char × List Char)
  | a :: b :: rest =>
    if Text.isAsciiDigit a then
      if Text.isAsciiDigit b then some ([a, b], rest) else some ([a], b :: rest)
    else none
  | [a] => if Text.isAsciiDigit a then some ([a], []) else none
  | [] => none

/-- As many digits as asked for at the front, and the rest. -/
def fixedNumber? (width : Nat) (cs : List Char) : Option (List Char × List Char) :=
  let digits := cs.take width
  if digits.length = width ∧ digits.all Text.isAsciiDigit then some (digits, cs.drop width)
  else none

/-- The rest after a character that has to stand at the front. -/
def after? (mark : Char) : List Char → Option (List Char)
  | c :: cs => if c == mark then some cs else none
  | [] => none

/-- A space or a tab. -/
def isGapChar (c : Char) : Bool :=
  c == ' ' || c == '\t'

/-- The rest after what separates a day and a time. -/
def afterSeparator? : List Char → Option (List Char)
  | c :: cs =>
    if c == 'T' || c == 't' then some cs
    else if isGapChar c then some (cs.dropWhile isGapChar)
    else none
  | [] => none

/-- What may end a time: nothing, the sign of universal time, or an offset. -/
def zone? (cs : List Char) : Option (Bool × Option (Bool × List Char × List Char)) :=
  if cs.isEmpty then some (false, none)
  else
    match cs.dropWhile isGapChar with
    | ['Z'] => some (true, none)
    | sign :: rest =>
      if sign == '+' || sign == '-' then
        match shortNumber? rest with
        | some (hours, []) => some (false, some (sign == '-', hours, []))
        | some (hours, ':' :: minutes) =>
          if minutes.length = 2 ∧ minutes.all Text.isAsciiDigit then
            some (false, some (sign == '-', hours, minutes))
          else none
        | _ => none
      else none
    | [] => none

/-- The fields of a time. -/
def clock? (cs : List Char) :
    Option ((List Char × List Char × List Char × List Char) × List Char) := do
  let (hour, cs) ← shortNumber? cs
  let cs ← after? ':' cs
  let (minute, cs) ← fixedNumber? 2 cs
  let cs ← after? ':' cs
  let (second, cs) ← fixedNumber? 2 cs
  match cs with
  | '.' :: rest =>
    let fraction := rest.takeWhile Text.isAsciiDigit
    return ((hour, minute, second, fraction), rest.drop fraction.length)
  | cs => return ((hour, minute, second, []), cs)

/-- The fields of a day and perhaps a time. -/
def read? (cs : List Char) : Option MomentText := do
  let (year, cs) ← fixedNumber? 4 cs
  let cs ← after? '-' cs
  let (month, cs) ← shortNumber? cs
  let cs ← after? '-' cs
  let (day, cs) ← shortNumber? cs
  if cs.isEmpty then return ⟨year, month, day, none, false, none⟩
  let (clock, cs) ← clock? (← afterSeparator? cs)
  let (universal, offset) ← zone? cs
  return ⟨year, month, day, some clock, universal, offset⟩

/-- Whether a plain scalar with these fields is a day or time: a day alone has all its digits. -/
def isPlain (m : MomentText) : Bool :=
  m.clock.isSome || (m.month.length == 2 && m.day.length == 2)

end MomentText

namespace Tag

/-- Characters without a line feed at their end. -/
def withoutLineFeed (cs : List Char) : List Char :=
  if cs.getLast? == some '\n' then cs.dropLast else cs

/-- Whether characters have a form; a line feed at their end does not count. -/
def hasForm (form : List Char → Bool) (cs : List Char) : Bool :=
  form cs || form (withoutLineFeed cs)

/-- Whether characters are a day or time. -/
def isMoment (cs : List Char) : Bool :=
  (MomentText.read? cs).any MomentText.isPlain

/-- The type that a plain scalar has by its characters. -/
def ofPlain (cs : List Char) : Tag :=
  if hasForm isBool cs then .bool
  else if hasForm isReal cs then .real
  else if hasForm isInteger cs then .integer
  else if hasForm (· == ['<', '<']) cs then .merge
  else if cs != ['\n'] && hasForm isNull cs then .null
  else if hasForm isMoment cs then .timestamp
  else if hasForm (· == ['=']) cs then .value
  else if hasForm (fun cs => cs == ['!'] || cs == ['&'] || cs == ['*']) cs then .other
  else .text

end Tag

end Runbook.Yaml
