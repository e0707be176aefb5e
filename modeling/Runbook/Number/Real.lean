import Runbook.Number.Binary64
import Runbook.Number.Integer

/-!
# Reading a decimal number

A text such as `-1.50e3`, `.5`, `7.` or `inf` as the nearest number of the 64-bit binary format.
-/

namespace Runbook.Number

/-- A text that denotes no number. -/
structure RealFault where
  /-- The text. -/
  text : String
  deriving DecidableEq, Repr

/-- The wording of a fault. -/
def RealFault.message (f : RealFault) : String :=
  s!"could not convert string to float: {Text.quoted f.text}"

/-- An exponent at the end of a decimal: a letter e, a sign if any, and digits. -/
def readExponent? : List Char → Option Int
  | [] => some 0
  | e :: cs =>
    if e == 'e' || e == 'E' then
      let (negative, cs) := match cs with
        | '-' :: cs => (true, cs)
        | '+' :: cs => (false, cs)
        | cs => (false, cs)
      if cs.head? == some '_' then none
      else
        match takeDigits 10 cs with
        | ([], _) => none
        | (_, _ :: _) => none
        | (digits, []) =>
          let n : Int := ofDigits 10 digits
          some (if negative then -n else n)
    else none

/-- An unsigned decimal: digits with a point among, before or after them, and an exponent if any. -/
def readUnsigned? (negative : Bool) (cs : List Char) : Option Binary64 :=
  if cs.head? == some '_' then none
  else
    let (whole, rest) := takeDigits 10 cs
    let (fraction, rest) := match rest with
      | '.' :: '_' :: cs => ([], '.' :: '_' :: cs)
      | '.' :: cs => takeDigits 10 cs
      | cs => ([], cs)
    if whole.isEmpty && fraction.isEmpty then none
    else
      (readExponent? rest).map fun exponent =>
        Binary64.ofDecimal negative (ofDigits 10 (whole ++ fraction)) (exponent - fraction.length)

/-- Reads the number that a text denotes. White space around it is ignored, and so is the case of
the words for the infinities and for no number. -/
def readReal (text : String) : Except RealFault Binary64 :=
  let cs := Text.trimmed text.toList
  let (negative, cs) := match cs with
    | '-' :: cs => (true, cs)
    | '+' :: cs => (false, cs)
    | cs => (false, cs)
  let word := cs.map fun c => if 'A' ≤ c && c ≤ 'Z' then Char.ofNat (c.toNat + 32) else c
  if word == "inf".toList || word == "infinity".toList then .ok (.infinite negative)
  else if word == "nan".toList then .ok .nan
  else
    match readUnsigned? negative cs with
    | some x => .ok x
    | none => .error ⟨text⟩

end Runbook.Number
