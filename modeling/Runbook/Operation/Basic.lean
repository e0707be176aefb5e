import Runbook.Capture
import Runbook.Path

/-!
# Operations

An operation is called with parameters and a context and returns a value or fails. It may have
effects on the world, of which nothing is known here: an operation is a function that takes the
world's state and gives the next one.
-/

namespace Runbook

/-- What an operation is told beside its parameters. -/
structure Context where
  /-- The step on whose behalf the operation is called. -/
  stepName : String
  /-- The position of the loop's item, if the step has a loop. -/
  loopIndex : Option Nat := none
  /-- The directory of the workflow's document, if the workflow was read from one. -/
  workflowDirectory : Option Path := none
  deriving DecidableEq, Repr, Inhabited

/-- Why a call yields no text. -/
inductive Failure where
  /-- No operation has the name; `available` are the names that there are. -/
  | notFound (name : String) (available : List String)
  /-- The operation itself failed, in a way that it calls by a name of its own. -/
  | raised (kind message : String)
  /-- What the operation returned is no result. -/
  | unusable (error : Capture.Error)
  deriving DecidableEq, Repr

/-- The wording of a failure. -/
def Failure.message : Failure → String
  | .notFound name _ => s!"unsupported operation: {name}"
  | .raised _ message => message
  | .unusable error => error.message

/-- How an operation behaves in a world. -/
abbrev Behaviour (σ : Type) :=
  Parameters → Context → σ → Except Failure Value × σ

end Runbook
