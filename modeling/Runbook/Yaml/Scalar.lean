import Runbook.Text.Lowercase
import Runbook.Value.Basic
import Runbook.Yaml.Fault
import Runbook.Yaml.Tag

/-!
# Scalars

The value that the characters of a scalar denote by its type. Integers may be written in base 2, 8,
10, 16 or 60, numbers in base 10 or 60, octets in base 64.
-/

namespace Runbook.Yaml

/-- The truth value of a word. -/
def boolValue (s : String) : Except Fault Bool :=
  let word := Text.lower s
  if ["yes", "true", "on"].contains word then .ok true
  else if ["no", "false", "off"].contains word then .ok false
  else .error (.truth word)

/-- The sign of a number and the characters after it. Without characters there is no number. -/
def signed (cs : List Char) : Except Fault (Bool × List Char) :=
  match cs with
  | [] => .error .emptyNumber
  | '-' :: cs => .ok (true, cs)
  | '+' :: cs => .ok (false, cs)
  | cs => .ok (false, cs)

/-- The integer of characters in a base. -/
def integerIn (base : Nat) (cs : List Char) : Except Fault Int :=
  (Number.readInteger base (String.ofList cs)).mapError .integer

/-- The integer of characters after a sign. -/
def unsignedInteger (cs : List Char) : Except Fault Int :=
  match cs with
  | [] => .error .emptyNumber
  | ['0'] => .ok 0
  | '0' :: 'b' :: digits => integerIn 2 digits
  | '0' :: 'x' :: digits => integerIn 16 digits
  -- Any other zero in front makes the number octal.
  | '0' :: digits => integerIn 8 ('0' :: digits)
  | cs =>
    if cs.contains ':' then
      ((Tag.groups cs).mapM (integerIn 10)).map fun ns => ns.foldl (fun n d => n * 60 + d) 0
    else integerIn 10 cs

/-- The integer of a text, in which underscores do not count. -/
def integerValue (s : String) : Except Fault Int := do
  let (negative, cs) ← signed (s.toList.filter (· != '_'))
  let n ← unsignedInteger cs
  return if negative then -n else n

/-- The number of a text. -/
def realOf (cs : List Char) : Except Fault Number.Binary64 :=
  (Number.readReal (String.ofList cs)).mapError .real

/-- The power of sixty that the digit at a place is worth, as a number of the format. -/
def powerOfSixty (place : Nat) : Except Fault Nat :=
  match (Number.Binary64.ofRatio false (Nat.pow 60 place) 1).toInt? with
  | some n => .ok n.toNat
  | none => .error .powerTooLarge

/-- The sum of digits of base sixty, the last one first, from a place on. -/
def sumOfSixties :
    Nat → Number.Binary64 → List Number.Binary64 → Except Fault Number.Binary64
  | _, sum, [] => .ok sum
  | place, sum, d :: ds => do
    let power ← powerOfSixty place
    sumOfSixties (place + 1) (sum.add (d.scale power)) ds

/-- The number of characters after a sign. -/
def unsignedReal (cs : List Char) : Except Fault Number.Binary64 :=
  if cs == ".inf".toList then .ok (.infinite false)
  else if cs == ".nan".toList then .ok .nan
  else if cs.contains ':' then do
    let digits ← (Tag.groups cs).mapM realOf
    sumOfSixties 0 (.zero false) digits.reverse
  else realOf cs

/-- The sign and the characters of a number, in which underscores and the case of letters do not
count. -/
def realParts (s : String) : Except Fault (Bool × List Char) :=
  signed (Text.lower (String.ofList (s.toList.filter (· != '_')))).toList

/-- Whether a text is the word for the value that is no number. -/
def namesNaN (s : String) : Bool :=
  (realParts s).toOption.any fun (_, cs) => cs == ".nan".toList

/-- The number of a text. -/
def realValue (s : String) : Except Fault Number.Binary64 := do
  let (negative, cs) ← realParts s
  let x ← unsignedReal cs
  return if negative then x.neg else x

/-- The number that digits denote. -/
def numberOf (cs : List Char) : Nat :=
  cs.foldl (fun n c => n * 10 + (c.toNat - 48)) 0

/-- The microseconds of a fraction of a second, of which six digits count. -/
def microseconds (fraction : List Char) : Nat :=
  let digits := fraction.take 6
  numberOf (digits ++ List.replicate (6 - digits.length) '0')

/-- The offset in minutes that the fields of a time tell, which is less than a day. -/
def offsetOf (m : MomentText) : Except Fault (Option Int) :=
  match m.offset with
  | some (negative, hours, minutes) =>
    let n : Int := (numberOf hours * 60 + numberOf minutes : Nat)
    let n := if negative then -n else n
    if 1440 ≤ n.natAbs then .error (.calendar (.offset n)) else .ok (some n)
  | none => .ok (if m.universal then some 0 else none)

/-- The day or time of fields. -/
def momentOf (m : MomentText) : Except Fault Value :=
  let year := numberOf m.year
  let month := numberOf m.month
  let day := numberOf m.day
  match m.clock with
  | none => ((Calendar.Date.ofFields year month day).mapError .calendar).map .date
  | some (hour, minute, second, fraction) => do
    let offset ← offsetOf m
    let t ← (Calendar.DateTime.ofFields year month day (numberOf hour) (numberOf minute)
      (numberOf second) (microseconds fraction) offset).mapError .calendar
    return .dateTime t

/-- The day or time of a text. -/
def momentValue (s : String) : Except Fault Value :=
  match (MomentText.read? s.toList).or (MomentText.read? (Tag.withoutLineFeed s.toList)) with
  | some m => momentOf m
  | none => .error .moment

/-- The value of a digit of base 64. -/
def digit64? (c : Char) : Option Nat :=
  if 'A' ≤ c ∧ c ≤ 'Z' then some (c.toNat - 65)
  else if 'a' ≤ c ∧ c ≤ 'z' then some (c.toNat - 71)
  else if '0' ≤ c ∧ c ≤ '9' then some (c.toNat + 4)
  else if c = '+' then some 62
  else if c = '/' then some 63
  else none

/-- The digits of base 64 up to the padding; other characters do not count. `filled` are the digits
since the last whole group, and `pads` the signs of padding after them. The result tells whether
padding has completed the last group. -/
def digits64 : Nat → Nat → List Char → List Nat × Bool
  | _, _, [] => ([], false)
  | filled, pads, c :: cs =>
    if c = '=' then
      if 2 ≤ filled then
        if 4 ≤ filled + (pads + 1) then ([], true) else digits64 filled (pads + 1) cs
      else digits64 filled pads cs
    else
      match digit64? c with
      | none => digits64 filled pads cs
      | some d =>
        let (ds, complete) := digits64 ((filled + 1) % 4) 0 cs
        (d :: ds, complete)

/-- The octets of digits of base 64; the last group may lack some. -/
def octets64 : List Nat → List UInt8
  | a :: b :: c :: d :: rest =>
    (a * 4 + b / 16).toUInt8 :: (b % 16 * 16 + c / 4).toUInt8 :: (c % 4 * 64 + d).toUInt8 ::
      octets64 rest
  | [a, b, c] => [(a * 4 + b / 16).toUInt8, (b % 16 * 16 + c / 4).toUInt8]
  | [a, b] => [(a * 4 + b / 16).toUInt8]
  | _ => []

/-- The octets of a text in base 64, which has to be ASCII. -/
def octetsValue (s : String) : Except Fault (List UInt8) :=
  if s.toList.any fun c => 128 ≤ c.toNat then .error .malformed
  else
    let (ds, complete) := digits64 0 0 s.toList
    if ds.length % 4 = 0 ∨ complete then .ok (octets64 ds) else .error .malformed

/-- The value of a scalar of a type. -/
def scalarValue (tag : Tag) (s : String) : Except Fault Value :=
  match tag with
  | .null => .ok .null
  | .bool => (boolValue s).map .bool
  | .integer => (integerValue s).map .integer
  | .real => (realValue s).map .real
  | .binary => (octetsValue s).map .octets
  | .timestamp => momentValue s
  | .text => .ok (.text s)
  | _ => .error .malformed

end Runbook.Yaml
