import Runbook.Json.Parser
import Runbook.Text.Blank

/-!
# Several values in one text

A text may hold several JSON values one after the other, as the joined outputs of a loop do. White
space of any kind may stand around them, and nothing need stand between them.
-/

namespace Runbook.Json

/-- Why a text is no sequence of values. -/
inductive StreamError where
  /-- There is no value in the text. -/
  | noValue
  /-- A value is faulty. -/
  | faulty (error : Error)
  deriving DecidableEq, Repr

/-- The wording of an error. -/
def StreamError.message : StreamError → String
  | .noValue => "no JSON value found"
  | .faulty error => error.message

/-- Reads values to the end of a text. Every value takes a character at least, so as much fuel as
there are characters is enough. -/
def readMany : Nat → List Char → Except Fault (List Json)
  | 0, _ => .ok []
  | fuel + 1, cs =>
    match cs.dropWhile Text.isSpace with
    | [] => .ok []
    | rest =>
      match readFront .strict rest with
      | .error fault => .error fault
      | .ok (value, rest) => (readMany fuel rest).map (value :: ·)

/-- The values of a text that holds one at least. -/
def parseMany (s : String) : Except StreamError (List Json) :=
  match readMany (s.toList.length + 1) s.toList with
  | .error fault => .error (.faulty (fault.within s.toList))
  | .ok [] => .error .noValue
  | .ok values => .ok values

end Runbook.Json
