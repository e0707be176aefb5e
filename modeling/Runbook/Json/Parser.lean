import Runbook.Json.Basic
import Runbook.Number.Integer
import Runbook.Text.Digit
import Runbook.Text.Surrogate

/-!
# Reading JSON

A reader of JSON text that tells the first fault with its place. A dialect says what is accepted
beyond the standard: the strict one accepts nothing else.

The reader works on the characters that are left; a fault is placed by how many of them there were.
-/

namespace Runbook.Json

/-- What a reader accepts. -/
structure Dialect where
  /-- Whether the words for values that are no finite number are accepted. -/
  constants : Bool
  /-- Whether the number of digits of an integer is bounded. -/
  boundsIntegers : Bool
  /-- Whether a byte order mark at the front is a fault of its own. -/
  namesMark : Bool
  deriving DecidableEq, Repr

/-- Standard JSON. -/
def Dialect.strict : Dialect := ⟨false, false, false⟩

/-- What workflow documents are written in: the words for values that are no finite number are
accepted, and integers are bounded. -/
def Dialect.lenient : Dialect := ⟨true, true, true⟩

/-- What is wrong at the place of a fault. -/
inductive Cause where
  /-- A value should begin here. -/
  | expectedValue
  /-- A key should begin here. -/
  | expectedName
  /-- A colon should stand here. -/
  | expectedColon
  /-- A comma or the end of the array or object should stand here. -/
  | expectedComma
  /-- A character below the space stands in a string. -/
  | invalidControl
  /-- A backslash in a string begins no escape. -/
  | invalidEscape
  /-- An escape by number lacks its four hexadecimal digits. -/
  | invalidUnicodeEscape
  /-- The string that begins here does not end. -/
  | unterminatedString
  /-- Something stands after the value. -/
  | extraData
  /-- The text begins with a byte order mark. -/
  | byteOrderMark
  /-- The word is no standard JSON. -/
  | constant (word : String)
  /-- An integer has this many digits, more than are read. -/
  | integerTooLong (count : Nat)
  deriving DecidableEq, Repr

/-- A cause, and how many characters were left at its place. -/
structure Fault where
  /-- What is wrong. -/
  cause : Cause
  /-- How many characters were left. -/
  remaining : Nat
  deriving DecidableEq, Repr

/-- The result of a reader that may leave characters over. -/
abbrev Reading (α : Type) := Except Fault (α × List Char)

/-- White space between tokens. -/
def isBlankChar (c : Char) : Bool :=
  c == ' ' || c == '\t' || c == '\n' || c == '\r'

/-- The characters after the white space at the front. -/
def skipBlanks (cs : List Char) : List Char :=
  cs.dropWhile isBlankChar

/-- The character that a one-letter escape stands for. -/
def escape? (c : Char) : Option Char :=
  if c = '"' then some '"'
  else if c = '\\' then some '\\'
  else if c = '/' then some '/'
  else if c = 'b' then some '\x08'
  else if c = 'f' then some '\x0c'
  else if c = 'n' then some '\n'
  else if c = 'r' then some '\r'
  else if c = 't' then some '\t'
  else none

/-- The number that four hexadecimal digits denote. -/
def hexNumber? (a b c d : Char) : Option Nat := do
  let a ← Text.hexValue? a
  let b ← Text.hexValue? b
  let c ← Text.hexValue? c
  let d ← Text.hexValue? d
  return ((a * 16 + b) * 16 + c) * 16 + d

/-- Puts a number in front of those that a reader found. -/
def Reading.cons (n : Nat) (r : Reading (List Nat)) : Reading (List Nat) :=
  r.map fun (ns, rest) => (n :: ns, rest)

/-- The code points of a string, up to and without its closing quote; an escape by number gives the
number as written. `whole` is the text from the opening quote on. An escape by number has to be
followed by a further character. -/
def readCodes (whole : List Char) : List Char → Reading (List Nat)
  | [] => .error ⟨.unterminatedString, whole.length⟩
  | c :: rest =>
    if c = '"' then .ok ([], rest)
    else if c = '\\' then
      match rest with
      | [] => .error ⟨.unterminatedString, whole.length⟩
      | e :: more =>
        if e = 'u' then
          match more with
          | a :: b :: c :: d :: after =>
            match hexNumber? a b c d, after with
            | some n, _ :: _ => (readCodes whole after).cons n
            -- Such a fault is placed at the `u`.
            | _, _ => .error ⟨.invalidUnicodeEscape, more.length + 1⟩
          | _ => .error ⟨.invalidUnicodeEscape, more.length + 1⟩
        else
          match escape? e with
          | some ch => (readCodes whole more).cons ch.toNat
          -- Such a fault is placed at the backslash.
          | none => .error ⟨.invalidEscape, more.length + 2⟩
    else if c.toNat < 0x20 then .error ⟨.invalidControl, rest.length + 1⟩
    else (readCodes whole rest).cons c.toNat

/-- The characters of code points, two halves taken together. -/
def joinSurrogates : List Nat → List Char
  | [] => []
  | [n] => [Text.charOfCode n]
  | n :: m :: rest =>
    if Text.isHighSurrogate n && Text.isLowSurrogate m then
      Text.charOfHalves n m :: joinSurrogates rest
    else Text.charOfCode n :: joinSurrogates (m :: rest)

/-- Reads a string whose opening quote was the first character of `whole`. -/
def readString (whole rest : List Char) : Reading String :=
  (readCodes whole rest).map fun (codes, rest) => (String.ofList (joinSurrogates codes), rest)

/-- The digits before the point of a number. -/
def wholePart? : List Char → Option (List Char × List Char)
  | [] => none
  | c :: cs =>
    if c = '0' then some (['0'], cs)
    else if Text.isAsciiDigit c then
      some (c :: cs.takeWhile Text.isAsciiDigit, cs.dropWhile Text.isAsciiDigit)
    else none

/-- A point with digits after it, or nothing. -/
def fractionPart : List Char → List Char × List Char
  | '.' :: c :: cs =>
    if Text.isAsciiDigit c then
      ('.' :: c :: cs.takeWhile Text.isAsciiDigit, cs.dropWhile Text.isAsciiDigit)
    else ([], '.' :: c :: cs)
  | cs => ([], cs)

/-- A sign, or nothing. -/
def signPart : List Char → List Char × List Char
  | [] => ([], [])
  | c :: cs => if c = '+' ∨ c = '-' then ([c], cs) else ([], c :: cs)

/-- An exponent, or nothing. -/
def exponentPart : List Char → List Char × List Char
  | [] => ([], [])
  | e :: cs =>
    if e = 'e' ∨ e = 'E' then
      let (sign, rest) := signPart cs
      let digits := rest.takeWhile Text.isAsciiDigit
      if digits.isEmpty then ([], e :: cs)
      else (e :: (sign ++ digits), rest.dropWhile Text.isAsciiDigit)
    else ([], e :: cs)

/-- The longest number at the front of a text: its sign and whole part, its fraction and exponent,
and what follows. -/
def takeNumber? (cs : List Char) : Option (List Char × List Char × List Char) :=
  let (sign, digits) := match cs with
    | '-' :: rest => (['-'], rest)
    | rest => ([], rest)
  (wholePart? digits).map fun (whole, rest) =>
    let (fraction, rest) := fractionPart rest
    let (exponent, rest) := exponentPart rest
    (sign ++ whole, fraction ++ exponent, rest)

/-- The words that are values. -/
def words : List (List Char × Json) :=
  [("null".toList, .null), ("true".toList, .bool true), ("false".toList, .bool false)]

/-- The words for values that are no finite number. -/
def constantWords : List (List Char) :=
  ["NaN".toList, "Infinity".toList, "-Infinity".toList]

/-- Reads a word or a number. -/
def readScalar (d : Dialect) (cs : List Char) : Reading Json :=
  match words.find? fun (word, _) => word.isPrefixOf cs with
  | some (word, value) => .ok (value, cs.drop word.length)
  | none =>
    -- One of these words begins like a number, so they are looked for first.
    match constantWords.find? (·.isPrefixOf cs) with
    | some word =>
      if d.constants then .ok (.number (String.ofList word), cs.drop word.length)
      else .error ⟨.constant (String.ofList word), cs.length⟩
    | none =>
      match takeNumber? cs with
      | none => .error ⟨.expectedValue, cs.length⟩
      | some (whole, tail, rest) =>
        let count := (whole.filter Text.isAsciiDigit).length
        if d.boundsIntegers && tail.isEmpty && Number.maxDigits < count then
          .error ⟨.integerTooLong count, cs.length⟩
        else .ok (.number (String.ofList (whole ++ tail)), rest)

mutual

/-- Reads a value at the front of a text. The fuel bounds the number of calls. -/
def readValue (d : Dialect) : Nat → List Char → Reading Json
  | 0, cs => .error ⟨.expectedValue, cs.length⟩
  | _ + 1, [] => .error ⟨.expectedValue, 0⟩
  | fuel + 1, c :: cs =>
    if c = '"' then (readString (c :: cs) cs).map fun (text, rest) => (.string text, rest)
    else if c = '\x7b' then
      match skipBlanks cs with
      | '\x7d' :: rest => .ok (.object [], rest)
      | rest =>
        (readMembers d fuel rest).map fun (members, rest) => (.object (collapse members), rest)
    else if c = '[' then
      match skipBlanks cs with
      | ']' :: rest => .ok (.array [], rest)
      | rest => (readItems d fuel rest).map fun (items, rest) => (.array items, rest)
    else readScalar d (c :: cs)

/-- Reads the items of an array from the first one to the closing bracket. -/
def readItems (d : Dialect) : Nat → List Char → Reading (List Json)
  | 0, cs => .error ⟨.expectedValue, cs.length⟩
  | fuel + 1, cs =>
    match readValue d fuel cs with
    | .error fault => .error fault
    | .ok (item, rest) =>
      match skipBlanks rest with
      | ']' :: rest => .ok ([item], rest)
      | ',' :: rest =>
        (readItems d fuel (skipBlanks rest)).map fun (items, rest) => (item :: items, rest)
      | rest => .error ⟨.expectedComma, rest.length⟩

/-- Reads the members of an object, as written, from the first one to the closing brace. -/
def readMembers (d : Dialect) : Nat → List Char → Reading (List (String × Json))
  | 0, cs => .error ⟨.expectedName, cs.length⟩
  | fuel + 1, cs =>
    match cs with
    | '"' :: body =>
      match readString cs body with
      | .error fault => .error fault
      | .ok (key, rest) =>
        match skipBlanks rest with
        | ':' :: rest =>
          match readValue d fuel (skipBlanks rest) with
          | .error fault => .error fault
          | .ok (value, rest) =>
            match skipBlanks rest with
            | '\x7d' :: rest => .ok ([(key, value)], rest)
            | ',' :: rest =>
              (readMembers d fuel (skipBlanks rest)).map fun (members, rest) =>
                ((key, value) :: members, rest)
            | rest => .error ⟨.expectedComma, rest.length⟩
        | rest => .error ⟨.expectedColon, rest.length⟩
    | cs => .error ⟨.expectedName, cs.length⟩

end

/-- Enough fuel for a text. -/
def fuelFor (cs : List Char) : Nat :=
  2 * cs.length + 2

/-- Reads a value at the front of a text. -/
def readFront (d : Dialect) (cs : List Char) : Reading Json :=
  readValue d (fuelFor cs) cs

/-- The value that the whole of a text denotes, with white space around it. -/
def readWhole (d : Dialect) (cs : List Char) : Except Fault Json :=
  if d.namesMark && cs.head? == some '\ufeff' then .error ⟨.byteOrderMark, cs.length⟩
  else
    match readFront d (skipBlanks cs) with
    | .error fault => .error fault
    | .ok (value, rest) =>
      match skipBlanks rest with
      | [] => .ok value
      | rest => .error ⟨.extraData, rest.length⟩

/-- A fault and the text it was found in. -/
structure Error where
  /-- What is wrong. -/
  cause : Cause
  /-- The number of characters before the place. -/
  offset : Nat
  /-- The line of the place, from 1. -/
  line : Nat
  /-- The column of the place, from 1. -/
  column : Nat
  deriving DecidableEq, Repr

/-- Places a fault in the text it was found in; lines end at line feeds only. -/
def Fault.within (f : Fault) (cs : List Char) : Error :=
  let offset := cs.length - f.remaining
  let before := cs.take offset
  { cause := f.cause
    offset := offset
    line := before.count '\n' + 1
    column := (before.reverse.takeWhile (· != '\n')).length + 1 }

/-- The wording of a cause that is told with its place. -/
def Cause.phrase : Cause → String
  | .expectedValue => "Expecting value"
  | .expectedName => "Expecting property name enclosed in double quotes"
  | .expectedColon => "Expecting ':' delimiter"
  | .expectedComma => "Expecting ',' delimiter"
  | .invalidControl => "Invalid control character at"
  | .invalidEscape => "Invalid \\escape"
  | .invalidUnicodeEscape => "Invalid \\uXXXX escape"
  | .unterminatedString => "Unterminated string starting at"
  | .extraData => "Extra data"
  | .byteOrderMark => "Unexpected UTF-8 BOM (decode using utf-8-sig)"
  | .constant word => s!"{word} is not valid JSON"
  | .integerTooLong count => (Number.IntegerFault.tooManyDigits count).message

/-- Whether a cause is told with its place. -/
def Cause.hasPlace : Cause → Bool
  | .constant _ => false
  | .integerTooLong _ => false
  | _ => true

/-- The wording of an error. -/
def Error.message (e : Error) : String :=
  if e.cause.hasPlace then
    s!"{e.cause.phrase}: line {e.line} column {e.column} (char {e.offset})"
  else e.cause.phrase

/-- The value that a text denotes. -/
def parse (d : Dialect) (s : String) : Except Error Json :=
  (readWhole d s.toList).mapError (·.within s.toList)

end Runbook.Json
