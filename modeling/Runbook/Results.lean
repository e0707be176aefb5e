import Runbook.Text.Lowercase

/-!
# Captured results

What steps have captured: for each step, in the order of capture, the texts under its output names.
-/

namespace Runbook

/-- A captured text and the format it is declared to have. -/
structure Captured where
  /-- The text. -/
  value : String
  /-- The declared format. -/
  format : String := "text"
  deriving DecidableEq, Repr, Inhabited

/-- Whether a format, in any letter case, is the one for JSON. -/
def isJsonFormat (format : String) : Bool :=
  Text.foldCase format == "json"

/-- Whether a captured text is declared to be JSON. -/
def Captured.isJson (c : Captured) : Bool :=
  isJsonFormat c.format

/-- The texts of one step by output name. -/
abbrev Outputs := List (String × Captured)

/-- The outputs of steps by step name. -/
abbrev Results := List (String × Outputs)

end Runbook
