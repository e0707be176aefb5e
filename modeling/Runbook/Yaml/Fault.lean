import Runbook.Calendar
import Runbook.Number.Integer
import Runbook.Number.Real

/-!
# Faults of YAML documents

A document is malformed if its text follows no rule of the language, or names what it does not
define. A well-formed document may still hold a scalar that denotes no value of its type.
-/

namespace Runbook.Yaml

/-- Why a document yields no value. -/
inductive Fault where
  /-- The document is malformed. -/
  | malformed
  /-- A text is no integer. -/
  | integer (fault : Number.IntegerFault)
  /-- A text is no number. -/
  | real (fault : Number.RealFault)
  /-- Fields are no day, time or offset. -/
  | calendar (fault : Calendar.Fault)
  /-- A text is no truth value. -/
  | truth (text : String)
  /-- A text without digits is to be a number. -/
  | emptyNumber
  /-- A text is no day or time. -/
  | moment
  /-- A map is to be a day or time, although it stands for a text. -/
  | momentOfMap
  /-- Maps stand for one another without end. -/
  | endless
  /-- A power of sixty is beyond every number of the format. -/
  | powerTooLarge
  /-- An escape gives a code beyond the last character. -/
  | noCharacter
  /-- An escape gives a code that does not fit a machine word. -/
  | codeTooLarge
  deriving DecidableEq, Repr

/-- The wording of a fault. Malformed documents are not told apart. -/
def Fault.message : Fault → String
  | .malformed => "<yaml error>"
  | .integer fault => fault.message
  | .real fault => fault.message
  | .calendar fault => fault.message
  | .truth text => Text.quoted text
  | .emptyNumber => "string index out of range"
  | .moment => "'NoneType' object has no attribute 'groupdict'"
  | .momentOfMap => "expected string or bytes-like object, got 'list'"
  | .endless => "maximum recursion depth exceeded"
  | .powerTooLarge => "int too large to convert to float"
  | .noCharacter => "chr() arg not in range(0x110000)"
  | .codeTooLarge => "Python int too large to convert to C int"

/-- Whether a fault says which text denotes no value; the others arise further on, where the text is
taken for one that does. -/
def Fault.isReported : Fault → Bool
  | .truth _ => false
  | .emptyNumber => false
  | .moment => false
  | .momentOfMap => false
  | .endless => false
  | .powerTooLarge => false
  | .codeTooLarge => false
  | _ => true

end Runbook.Yaml
