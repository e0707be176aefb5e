/-!
# Binary floating point

The numbers of the 64-bit binary format as exact data: a sign, a significand and an exponent, or an
infinity, or no number. Every operation is the exact one on ratios followed by one rounding to the
nearest number of the format, ties to the even significand.
-/

namespace Runbook.Number

/-- A number of the 64-bit binary format. -/
inductive Binary64 where
  /-- The number `± significand * 2 ^ exponent`. -/
  | finite (negative : Bool) (significand : Nat) (exponent : Int)
  /-- An infinity. -/
  | infinite (negative : Bool)
  /-- No number. -/
  | nan
  deriving DecidableEq, Repr, Inhabited

namespace Binary64

/-- A zero of either sign. -/
def zero (negative : Bool) : Binary64 := .finite negative 0 0

/-- The greatest `k` with `2 ^ k * den ≤ num`, for positive numbers. -/
def floorLog2 (num den : Nat) : Int :=
  let k : Int := (Nat.log2 num : Int) - Nat.log2 den
  let fits := if 0 ≤ k then Nat.pow 2 k.toNat * den ≤ num else den ≤ num * Nat.pow 2 (-k).toNat
  if fits then k else k - 1

/-- The quotient rounded to the nearest integer, a tie to the even one. -/
def roundHalfEven (num den : Nat) : Nat :=
  let q := num / den
  let r := num % den
  if 2 * r < den then q
  else if den < 2 * r then q + 1
  else if q % 2 = 0 then q else q + 1

/-- The number of the format nearest to `± num / den`, for positive `den`. -/
def ofRatio (negative : Bool) (num den : Nat) : Binary64 :=
  if num = 0 then zero negative
  else
    let exponent := max (floorLog2 num den - 52) (-1074)
    let significand :=
      if 0 ≤ exponent then roundHalfEven num (den * Nat.pow 2 exponent.toNat)
      else roundHalfEven (num * Nat.pow 2 (-exponent).toNat) den
    let (significand, exponent) :=
      if significand = Nat.pow 2 53 then (Nat.pow 2 52, exponent + 1) else (significand, exponent)
    if significand = 0 then zero negative
    else if 971 < exponent then .infinite negative
    else .finite negative significand exponent

/-- The number of the format nearest to `± digits * 10 ^ exponent`. Outside the range of the format
the magnitude decides without computing the power. -/
def ofDecimal (negative : Bool) (digits : Nat) (exponent : Int) : Binary64 :=
  if digits = 0 then zero negative
  else
    let magnitude := exponent + (Nat.toDigits 10 digits).length
    if 400 < magnitude then .infinite negative
    else if magnitude < -400 then zero negative
    else if 0 ≤ exponent then ofRatio negative (digits * Nat.pow 10 exponent.toNat) 1
    else ofRatio negative digits (Nat.pow 10 (-exponent).toNat)

/-- A ratio, of which the denominator is positive, that is the magnitude of a finite number. -/
def magnitude (significand : Nat) (exponent : Int) : Nat × Nat :=
  if 0 ≤ exponent then (significand * Nat.pow 2 exponent.toNat, 1)
  else (significand, Nat.pow 2 (-exponent).toNat)

/-- The number of the format nearest to a ratio, with a positive zero. -/
def ofSignedRatio (num : Int) (den : Nat) : Binary64 :=
  ofRatio (num < 0) num.natAbs den

/-- The opposite number. -/
def neg : Binary64 → Binary64
  | .finite s m e => .finite (!s) m e
  | .infinite s => .infinite (!s)
  | .nan => .nan

/-- The sum, rounded. -/
def add : Binary64 → Binary64 → Binary64
  | .nan, _ => .nan
  | _, .nan => .nan
  | .infinite s, .infinite t => if s == t then .infinite s else .nan
  | .infinite s, _ => .infinite s
  | _, .infinite t => .infinite t
  | .finite s m e, .finite t n f =>
    if m = 0 ∧ n = 0 then zero (s && t)
    else
      let (a, b) := magnitude m e
      let (c, d) := magnitude n f
      let left : Int := if s then -(a * d : Nat) else (a * d : Nat)
      let right : Int := if t then -(c * b : Nat) else (c * b : Nat)
      ofSignedRatio (left + right) (b * d)

/-- The product with a natural number, rounded. -/
def scale (x : Binary64) (k : Nat) : Binary64 :=
  match x with
  | .nan => .nan
  | .infinite s => if k = 0 then .nan else .infinite s
  | .finite s m e => let (a, b) := magnitude m e; ofRatio s (a * k) b

/-- The integer that a number is, if it is one. -/
def toInt? : Binary64 → Option Int
  | .finite s m e =>
    let (a, b) := magnitude m e
    if a % b = 0 then
      let n : Int := (a / b : Nat)
      some (if s then -n else n)
    else none
  | _ => none

/-- Numerical equality: the zeros are equal, and what is no number equals nothing. -/
def sameNumber : Binary64 → Binary64 → Bool
  | .nan, _ => false
  | _, .nan => false
  | .infinite s, .infinite t => s == t
  | .finite s m e, .finite t n f => (m == 0 && n == 0) || (s == t && m == n && e == f)
  | _, _ => false

/-- Whether a number is neither an infinity nor no number. -/
def isFinite : Binary64 → Bool
  | .finite .. => true
  | _ => false

end Binary64

end Runbook.Number
