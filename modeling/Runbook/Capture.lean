import Runbook.Log
import Runbook.Results
import Runbook.Text.Blank
import Runbook.Text.Utf8
import Runbook.Value.Encode

/-!
# Capturing what operations return

Whatever an operation returns becomes a text: octets are decoded, lists and maps written as JSON,
and every other value as its plain text. A blank text is no result.
-/

namespace Runbook.Capture

/-- Why a returned value is no result. -/
inductive Error where
  /-- The text is blank. -/
  | noText (step : String)
  /-- The value cannot be written as JSON. -/
  | encode (error : Value.EncodeError)
  /-- The value cannot be shown as a text. -/
  | integer (fault : Number.IntegerFault)
  deriving DecidableEq, Repr

/-- The wording of an error. -/
def Error.message : Error → String
  | .noText step => s!"operation returned no textual content for step '{step}'"
  | .encode error => error.message
  | .integer fault => fault.message

/-- How many spaces indent a level of captured JSON. -/
def indent : Nat := 2

/-- The text of a returned value, blank or not. -/
def rawText : Value → Except Error String
  | .octets bs =>
    match Text.Utf8.decode bs with
    | .ok s => .ok s
    | .error _ => .ok (Text.Utf8.repair bs)
  | .text s => .ok s
  | .number literal => .ok literal
  | .list items => ((Value.list items).outline indent).mapError .encode
  | .map entries => ((Value.map entries).outline indent).mapError .encode
  | .null => .ok ""
  | v => v.plain?.mapError .integer

/-- What is logged about a returned value of a step: octets that encode no text. -/
def warnings (v : Value) (step : String) : Log :=
  match v with
  | .octets bs =>
    match Text.Utf8.decode bs with
    | .ok _ => []
    | .error _ =>
      Log.warning s!"Step '{step}' returned non UTF-8 bytes; replacing invalid sequences"
  | _ => []

/-- The text of a returned value of a step. -/
def toText (v : Value) (step : String) : Except Error String :=
  match rawText v with
  | .error e => .error e
  | .ok s => if Text.isBlank s then .error (.noText step) else .ok s

/-- The texts of a loop's items as one result, a line end between neighbours. -/
def combine (texts : List String) (format : String) : Captured :=
  ⟨Text.join "\n" texts, format⟩

/-- A result is not blank. -/
theorem not_isBlank_of_toText {v : Value} {step s : String} (h : toText v step = .ok s) :
    Text.isBlank s = false := by
  unfold toText at h
  split at h
  · simp at h
  · split at h
    · simp at h
    · rename_i hblank
      simp only [Except.ok.injEq] at h
      subst h
      simpa using hblank

end Runbook.Capture
