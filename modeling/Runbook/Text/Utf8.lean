import Runbook.Text.Digit

/-!
# UTF-8

Encoding of characters as octets, decoding with the first fault and its place, and decoding that
puts a replacement character where an octet sequence breaks off.

A fault covers the longest beginning of a well-formed sequence that stands at its place, and at
least one octet.
-/

namespace Runbook.Text.Utf8

/-- The octets of one character. -/
def encodeChar (c : Char) : List UInt8 :=
  let n := c.toNat
  if n < 0x80 then [n.toUInt8]
  else if n < 0x800 then [(0xC0 + n / 64).toUInt8, (0x80 + n % 64).toUInt8]
  else if n < 0x10000 then
    [(0xE0 + n / 4096).toUInt8, (0x80 + n / 64 % 64).toUInt8, (0x80 + n % 64).toUInt8]
  else
    [(0xF0 + n / 262144).toUInt8, (0x80 + n / 4096 % 64).toUInt8, (0x80 + n / 64 % 64).toUInt8,
     (0x80 + n % 64).toUInt8]

/-- The octets of a text. -/
def encode (s : String) : List UInt8 :=
  s.toList.flatMap encodeChar

/-- Why octets at some place are no character. -/
inductive Reason where
  /-- No character begins with this octet. -/
  | invalidStart
  /-- An octet that should continue the character does not. -/
  | invalidContinuation
  /-- The octets end inside a character. -/
  | unexpectedEnd
  deriving DecidableEq, Repr

/-- The wording of a reason. -/
def Reason.message : Reason → String
  | .invalidStart => "invalid start byte"
  | .invalidContinuation => "invalid continuation byte"
  | .unexpectedEnd => "unexpected end of data"

/-- How many octets the character that begins with `lead` has after it, and the least and greatest
octet that may come second. -/
def shape? (lead : Nat) : Option (Nat × Nat × Nat) :=
  if 0xC2 ≤ lead ∧ lead ≤ 0xDF then some (1, 0x80, 0xBF)
  -- The second octet is bounded where a shorter form or half of a pair would be written.
  else if lead = 0xE0 then some (2, 0xA0, 0xBF)
  else if lead = 0xED then some (2, 0x80, 0x9F)
  else if 0xE1 ≤ lead ∧ lead ≤ 0xEF then some (2, 0x80, 0xBF)
  else if lead = 0xF0 then some (3, 0x90, 0xBF)
  else if 0xF1 ≤ lead ∧ lead ≤ 0xF3 then some (3, 0x80, 0xBF)
  else if lead = 0xF4 then some (3, 0x80, 0x8F)
  else none

/-- Reads `count` continuation octets, the first of them between `low` and `high`. `seen` octets of
the character stand before them and carry the number `code`. A fault tells its reason and how many
octets it covers. -/
def continuation : Nat → Nat → Nat → Nat → Nat → List UInt8 → Except (Reason × Nat) Nat
  | 0, _, _, _, code, _ => .ok code
  | _ + 1, _, _, seen, _, [] => .error (.unexpectedEnd, seen)
  | count + 1, low, high, seen, code, b :: bs =>
    if low ≤ b.toNat ∧ b.toNat ≤ high then
      continuation count 0x80 0xBF (seen + 1) (code * 64 + b.toNat % 64) bs
    else .error (.invalidContinuation, seen)

/-- The part of the character's number that the first of `count + 1` octets carries. -/
def leadBits (count lead : Nat) : Nat :=
  match count with
  | 1 => lead % 32
  | 2 => lead % 16
  | _ => lead % 8

/-- The first character of some octets and the number of octets it takes. -/
def decodeFirst (lead : UInt8) (bs : List UInt8) : Except (Reason × Nat) (Char × Nat) :=
  if lead.toNat < 0x80 then .ok (Char.ofNat lead.toNat, 1)
  else
    match shape? lead.toNat with
    | none => .error (.invalidStart, 1)
    | some (count, low, high) =>
      match continuation count low high 1 (leadBits count lead.toNat) bs with
      | .ok code => .ok (Char.ofNat code, count + 1)
      | .error fault => .error fault

/-- The first place at which octets are no text. -/
structure Fault where
  /-- The octet at the place. -/
  lead : UInt8
  /-- The place, counted in octets. -/
  position : Nat
  /-- How many octets the fault covers. -/
  count : Nat
  /-- What is wrong there. -/
  reason : Reason
  deriving DecidableEq, Repr

/-- The wording of a fault. -/
def Fault.message (f : Fault) : String :=
  if f.count = 1 then
    let octet := String.ofList (['0', 'x'] ++ hexDigits 2 f.lead.toNat)
    s!"'utf-8' codec can't decode byte {octet} in position {f.position}: {f.reason.message}"
  else
    let last := f.position + f.count - 1
    s!"'utf-8' codec can't decode bytes in position {f.position}-{last}: {f.reason.message}"

/-- Decodes octets from a place on; the first `skip` of them belong to a character read already. -/
def decodeFrom (position : Nat) : Nat → List UInt8 → Except Fault (List Char)
  | _, [] => .ok []
  | skip + 1, _ :: bs => decodeFrom (position + 1) skip bs
  | 0, b :: bs =>
    match decodeFirst b bs with
    | .ok (c, count) => (decodeFrom (position + 1) (count - 1) bs).map (c :: ·)
    | .error (reason, count) => .error ⟨b, position, count, reason⟩

/-- The text that octets encode, or the first place where they encode none. -/
def decode (bs : List UInt8) : Except Fault String :=
  (decodeFrom 0 0 bs).map String.ofList

/-- Decodes octets with a replacement character for each fault; the first `skip` octets belong to a
character or fault that is done with. -/
def repairFrom : Nat → List UInt8 → List Char
  | _, [] => []
  | skip + 1, _ :: bs => repairFrom skip bs
  | 0, b :: bs =>
    match decodeFirst b bs with
    | .ok (c, count) => c :: repairFrom (count - 1) bs
    | .error (_, count) => '\ufffd' :: repairFrom (count - 1) bs

/-- The text that octets encode, with a replacement character for each fault. -/
def repair (bs : List UInt8) : String :=
  String.ofList (repairFrom 0 bs)

end Runbook.Text.Utf8
