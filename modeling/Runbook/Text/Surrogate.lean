/-!
# Halves of pairs

Codes that stand for a character only two by two. Escapes may give one half without the other; a
text holds it as a private character, from which the code of the half can be told.
-/

namespace Runbook.Text

/-- The first half of a character outside the basic plane. -/
def isHighSurrogate (n : Nat) : Bool := 0xD800 ≤ n && n ≤ 0xDBFF

/-- The second half of a character outside the basic plane. -/
def isLowSurrogate (n : Nat) : Bool := 0xDC00 ≤ n && n ≤ 0xDFFF

/-- The distance from a half to the private character that stands for it. -/
def halfShift : Nat := 0x100000

/-- The character of a code, which may be a half without the other. -/
def charOfCode (n : Nat) : Char :=
  if isHighSurrogate n || isLowSurrogate n then Char.ofNat (halfShift + n) else Char.ofNat n

/-- The character of two halves. -/
def charOfHalves (high low : Nat) : Char :=
  Char.ofNat (0x10000 + (high - 0xD800) * 0x400 + (low - 0xDC00))

/-- The code of the half that a character stands for. -/
def half? (c : Char) : Option Nat :=
  let n := c.toNat - halfShift
  if isHighSurrogate n || isLowSurrogate n then some n else none

/-- The character of a number has this number, unless the number is that of a half or too great. -/
theorem toNat_ofNat {n : Nat} (h : n.isValidChar) : (Char.ofNat n).toNat = n := by
  rw [Char.ofNat, dif_pos h]
  rfl

/-- A half is told from the character that stands for it. -/
theorem half?_charOfCode (n : Nat) (h : (isHighSurrogate n || isLowSurrogate n) = true) :
    half? (charOfCode n) = some n := by
  have bounds : 0xD800 ≤ n ∧ n ≤ 0xDFFF := by
    simp only [isHighSurrogate, isLowSurrogate, Bool.or_eq_true, Bool.and_eq_true,
      decide_eq_true_eq] at h
    omega
  have valid : (halfShift + n).isValidChar := by
    simp only [Nat.isValidChar, halfShift]
    omega
  have hc : (charOfCode n).toNat - halfShift = n := by
    simp only [charOfCode, h, if_true, toNat_ofNat valid]
    omega
  simp only [half?, hc, h, if_true]

end Runbook.Text
