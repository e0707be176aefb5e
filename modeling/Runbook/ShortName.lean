import Runbook.Text.Split

/-!
# Short names

The short name of an item or a file is its last segment without the extension. Slashes and
backslashes both separate segments, and those at the end do not count. An extension begins at the
last point of the segment, unless nothing but points stands before it.
-/

namespace Runbook.ShortName

/-- A character between two segments. -/
def isSeparator (c : Char) : Bool :=
  c == '/' || c == '\\'

/-- The last segment of a text. -/
def lastSegment (cs : List Char) : List Char :=
  ((Text.splitWhere isSeparator (Text.dropEnd isSeparator cs)).getLast?).getD []

/-- What stands before the last point of a segment; nothing if there is no point. -/
def beforeLastPoint (cs : List Char) : List Char :=
  ((cs.reverse.dropWhile (· != '.')).drop 1).reverse

/-- A segment without its extension. -/
def withoutExtension (cs : List Char) : List Char :=
  if (beforeLastPoint cs).all (· == '.') then cs else beforeLastPoint cs

/-- The short name of an item or a file. -/
def of (s : String) : String :=
  String.ofList (withoutExtension (lastSegment s.toList))

/-- A segment that holds no separator keeps none. -/
theorem not_isSeparator_of_mem_withoutExtension {cs : List Char}
    (h : ∀ c ∈ cs, isSeparator c = false) : ∀ c ∈ withoutExtension cs, isSeparator c = false := by
  intro c hc
  unfold withoutExtension at hc
  split at hc
  · exact h c hc
  · apply h
    have hrev := List.mem_reverse.mp hc
    exact List.mem_reverse.mp (List.dropWhile_suffix _ |>.subset (List.mem_of_mem_drop hrev))

end Runbook.ShortName
