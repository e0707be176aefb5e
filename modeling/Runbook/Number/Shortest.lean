import Runbook.Number.Binary64
import Runbook.Number.Integer

/-!
# The shortest decimal text of a number

A finite number is written with the fewest decimal digits that read back as the same number, and of
those with the digits nearest to it. A layout says where positional notation ends.
-/

namespace Runbook.Number

/-- Decimal digits, read as an integer, and a power of ten. -/
structure Decimal where
  /-- The digits. -/
  digits : Nat
  /-- The power of ten that the digits are multiplied by. -/
  exponent : Int
  deriving DecidableEq, Repr

/-- The reals that round to a positive number, and the number itself, over one denominator. -/
structure RoundingInterval where
  /-- The lower end. -/
  low : Nat
  /-- The number. -/
  value : Nat
  /-- The upper end. -/
  high : Nat
  /-- The common denominator. -/
  den : Nat
  /-- Whether the two ends round to the number. -/
  closed : Bool
  deriving DecidableEq, Repr

/-- The interval of `significand * 2 ^ exponent`. The neighbour below is half as far away at the
least significand of a binade, unless the binade is the lowest. -/
def RoundingInterval.of (significand : Nat) (exponent : Int) : RoundingInterval :=
  let below := if significand = Nat.pow 2 52 ∧ -1074 < exponent then 1 else 2
  let up := Nat.pow 2 (exponent - 2).toNat
  -- In quarters of the last place the ends, half way to the neighbours, are whole numbers.
  { low := (4 * significand - below) * up
    value := 4 * significand * up
    high := (4 * significand + 2) * up
    den := Nat.pow 2 (2 - exponent).toNat
    closed := significand % 2 = 0 }

/-- The least `p` with `num / den < 10 ^ p`, for positive numbers. -/
def decimalPoint (num den : Nat) : Int :=
  if den ≤ num then (Nat.toDigits 10 (num / den)).length
  -- Below one, zeros follow the point: one less than the integer below `den / num` has digits.
  else 1 - ((Nat.toDigits 10 ((den + num - 1) / num - 1)).length : Int)

/-- Whether `digits * 10 ^ exponent` lies in an interval. -/
def RoundingInterval.holds (i : RoundingInterval) (d : Decimal) : Bool :=
  let point := d.digits * Nat.pow 10 d.exponent.toNat * i.den
  let grid := Nat.pow 10 (-d.exponent).toNat
  let low := i.low * grid
  let high := i.high * grid
  if i.closed then low ≤ point && point ≤ high else low < point && point < high

/-- Twice the distance of `digits * 10 ^ exponent` from the number, in units of one common size for
all decimals of one exponent. -/
def RoundingInterval.distance (i : RoundingInterval) (d : Decimal) : Nat :=
  let point := d.digits * Nat.pow 10 d.exponent.toNat * i.den
  let value := i.value * Nat.pow 10 (-d.exponent).toNat
  (point - value) + (value - point)

/-- Of two neighbours on a grid the nearer one; of two equally near ones the one that is even. -/
def RoundingInterval.nearer (i : RoundingInterval) (lower upper : Decimal) : Decimal :=
  let down := i.distance lower
  let up := i.distance upper
  if up < down then upper
  else if down < up then lower
  else if lower.digits % 2 = 0 then lower else upper

/-- The number's nearer neighbour on the grid of `count` digits that lies in the interval. -/
def RoundingInterval.neighbour? (i : RoundingInterval) (point : Int) (count : Nat) :
    Option Decimal :=
  let exponent := point - count
  let below := i.value * Nat.pow 10 (-exponent).toNat / (i.den * Nat.pow 10 exponent.toNat)
  let lower : Decimal := ⟨below, exponent⟩
  let upper : Decimal := ⟨below + 1, exponent⟩
  match i.holds lower, i.holds upper with
  | true, true => some (i.nearer lower upper)
  | true, false => some lower
  | false, true => some upper
  | false, false => none

/-- The fewest digits that read back as `significand * 2 ^ exponent`, for a positive significand. -/
def shortest (significand : Nat) (exponent : Int) : Decimal :=
  let i := RoundingInterval.of significand exponent
  let point := decimalPoint i.value i.den
  -- Seventeen digits are always enough.
  ((List.range 17).findSome? fun k => i.neighbour? point (k + 1)).getD
    ⟨i.value / i.den, 0⟩

/-- The digits without zeros at their end. -/
def significantDigits (digits : Nat) : List Char :=
  match ((decimal digits).reverse.dropWhile (· == '0')).reverse with
  | [] => ['0']
  | cs => cs

/-- Where positional notation is used, and how exponents are written. -/
structure DecimalLayout where
  /-- The least power of ten just above a number that is written positionally. -/
  positionalFrom : Int
  /-- The greatest such power of ten. -/
  positionalTo : Int
  /-- The least number of digits of an exponent. -/
  exponentDigits : Nat
  deriving DecidableEq, Repr

/-- Positional from `0.0001` up to below ten to the sixteenth; exponents have two digits at least.
-/
def standardLayout : DecimalLayout := ⟨-3, 16, 2⟩

/-- Lays out a decimal: a point always shows, unless one digit stands before an exponent. -/
def DecimalLayout.write (layout : DecimalLayout) (d : Decimal) : List Char :=
  let all := decimal d.digits
  let point := d.exponent + all.length
  let digits := significantDigits d.digits
  if layout.positionalFrom ≤ point ∧ point ≤ layout.positionalTo then
    if point ≤ 0 then ['0', '.'] ++ List.replicate (-point).toNat '0' ++ digits
    else if digits.length ≤ point.toNat then
      digits ++ List.replicate (point.toNat - digits.length) '0' ++ ['.', '0']
    else digits.take point.toNat ++ ['.'] ++ digits.drop point.toNat
  else
    let power := decimal (point - 1).natAbs
    let sign := if point - 1 < 0 then '-' else '+'
    let fraction := match digits.drop 1 with
      | [] => []
      | rest => '.' :: rest
    digits.take 1 ++ fraction ++ ['e', sign] ++
      List.replicate (layout.exponentDigits - power.length) '0' ++ power

/-- The decimal text of the magnitude of a finite number. -/
def magnitudeText (significand : Nat) (exponent : Int) : List Char :=
  if significand = 0 then ['0', '.', '0']
  else standardLayout.write (shortest significand exponent)

/-- The words for the values that are no finite number. -/
structure SpecialWords where
  /-- No number. -/
  nan : String
  /-- The positive infinity. -/
  infinity : String
  deriving DecidableEq, Repr

/-- The decimal text of a number. -/
def Binary64.text (words : SpecialWords) : Binary64 → String
  | .nan => words.nan
  | .infinite negative => if negative then "-" ++ words.infinity else words.infinity
  | .finite negative significand exponent =>
    let body := magnitudeText significand exponent
    String.ofList (if negative then '-' :: body else body)

/-- The words that plain text uses. -/
def plainWords : SpecialWords := ⟨"nan", "inf"⟩

/-- The words that structured text uses. -/
def structuredWords : SpecialWords := ⟨"NaN", "Infinity"⟩

end Runbook.Number
