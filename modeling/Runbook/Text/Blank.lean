/-!
# White space

The white-space characters, blank texts, and texts with their outer white space removed.
-/

namespace Runbook.Text

/-- The 29 white-space characters: the ASCII controls from tab to carriage return and from the file
separator to the unit separator, the space, next line, and the Unicode spaces and line ends. -/
def isSpace (c : Char) : Bool :=
  let n := c.toNat
  (9 ≤ n && n ≤ 13) || (28 ≤ n && n ≤ 32) || n == 0x85 || n == 0xA0 || n == 0x1680 ||
    (0x2000 ≤ n && n ≤ 0x200A) || n == 0x2028 || n == 0x2029 || n == 0x202F || n == 0x205F ||
    n == 0x3000

/-- A text without any character other than white space; the empty text is one. -/
def isBlank (s : String) : Bool :=
  s.toList.all isSpace

/-- A text without the white space at its two ends. -/
def trimmed (cs : List Char) : List Char :=
  ((cs.dropWhile isSpace).reverse.dropWhile isSpace).reverse

@[simp]
theorem isBlank_empty : isBlank "" = true := by
  simp [isBlank]

/-- Dropping the white space at the front leaves nothing exactly when there is nothing else. -/
theorem dropWhile_isSpace_eq_nil_iff (cs : List Char) :
    cs.dropWhile isSpace = [] ↔ cs.all isSpace = true := by
  induction cs with
  | nil => simp
  | cons c cs ih =>
    by_cases hc : isSpace c = true
    · simp [hc, ih]
    · simp [hc]

end Runbook.Text
