import Runbook.Text.Blank
import Runbook.Text.Digit
import Runbook.Text.Quoted

/-!
# Integers as text

Reading an integer in a base, with the faults that reading can have, and the bound on the number of
digits up to which integers are written and read outside the bases that are powers of two.
-/

namespace Runbook.Number

/-- The greatest number of digits of an integer that is read or written as text. -/
def maxDigits : Nat := 4300

/-- Why an integer could not be read or written. -/
inductive IntegerFault where
  /-- The text is no integer in the base. -/
  | notInteger (base : Nat) (text : String)
  /-- The text has this many digits, more than are read. -/
  | tooManyDigits (count : Nat)
  /-- The integer has more digits than are written. -/
  | tooLongToWrite
  deriving DecidableEq, Repr

/-- The wording of a fault; a text that is no integer is shown up to 200 characters. -/
def IntegerFault.message : IntegerFault → String
  | .notInteger base text =>
    let shown := String.ofList ((Text.quoted text).toList.take 200)
    s!"invalid literal for int() with base {base}: {shown}"
  | .tooManyDigits count =>
    s!"Exceeds the limit ({maxDigits} digits) for integer string conversion: value has {count} " ++
      "digits; use sys.set_int_max_str_digits() to increase the limit"
  | .tooLongToWrite =>
    s!"Exceeds the limit ({maxDigits} digits) for integer string conversion; " ++
      "use sys.set_int_max_str_digits() to increase the limit"

/-- The value of a digit in a base of at most sixteen: a decimal digit of any script, or a letter.
-/
def digitValue? (base : Nat) (c : Char) : Option Nat :=
  ((Text.decimalValue? c).or (Text.hexValue? c)).filter (· < base)

/-- The digits at the front of a text, single underscores between them skipped, and the rest. -/
def takeDigits (base : Nat) : List Char → List Nat × List Char
  | [] => ([], [])
  | '_' :: c :: cs =>
    match digitValue? base c with
    | some d => let (ds, rest) := takeDigits base cs; (d :: ds, rest)
    | none => ([], '_' :: c :: cs)
  | c :: cs =>
    match digitValue? base c with
    | some d => let (ds, rest) := takeDigits base cs; (d :: ds, rest)
    | none => ([], c :: cs)

/-- The number that digits denote in a base. -/
def ofDigits (base : Nat) (digits : List Nat) : Nat :=
  digits.foldl (fun n d => n * base + d) 0

/-- The text without the mark of its base, `0x`, `0o` or `0b`, when it begins with it. -/
def dropBaseMark (base : Nat) : List Char → List Char
  | '0' :: c :: cs =>
    let mark := (base == 16 && (c == 'x' || c == 'X')) || (base == 8 && (c == 'o' || c == 'O')) ||
      (base == 2 && (c == 'b' || c == 'B'))
    if mark then cs else '0' :: c :: cs
  | cs => cs

/-- Reads the integer that a text denotes in base 2, 8, 10 or 16: white space around it, a sign and
the mark of the base are accepted, and single underscores between digits. -/
def readInteger (base : Nat) (text : String) : Except IntegerFault Int :=
  let cs := Text.trimmed text.toList
  let (negative, cs) := match cs with
    | '-' :: cs => (true, cs)
    | '+' :: cs => (false, cs)
    | cs => (false, cs)
  let unmarked := dropBaseMark base cs
  let marked := unmarked.length < cs.length
  let startsWell := marked || unmarked.head? != some '_'
  let (digits, rest) := takeDigits base unmarked
  if base == 10 && maxDigits < digits.length then .error (.tooManyDigits digits.length)
  else if digits.isEmpty || !rest.isEmpty || !startsWell then .error (.notInteger base text)
  else
    let n : Int := ofDigits base digits
    .ok (if negative then -n else n)

/-- Whether an integer has more digits than are written. -/
def isTooLong (n : Int) : Bool :=
  Nat.pow 10 maxDigits ≤ n.natAbs

/-- The decimal digits of a number. -/
def decimal (n : Nat) : List Char :=
  Nat.toDigits 10 n

/-- The decimal text of an integer. -/
def decimalText (n : Int) : List Char :=
  if n < 0 then '-' :: decimal n.natAbs else decimal n.natAbs

end Runbook.Number
