import Runbook.Log
import Runbook.Number.Integer
import Runbook.Workflow.Validation

/-!
# Findings

What is found in a part of a document: its meaning, the problems in it, and what is logged. Findings
in one part after the other add up. An integer that cannot be shown in a message ends the search,
and what was found before it remains.
-/

namespace Runbook.Document

/-- What is found in a part of a document. -/
structure Finding (α : Type) where
  /-- The problems in order. -/
  problems : List Problem := []
  /-- What is logged. -/
  log : Log := []
  /-- The meaning, unless a message cannot be worded. -/
  outcome : Except Number.IntegerFault α

namespace Finding

variable {α β γ : Type}

/-- Finds a meaning and nothing else. -/
def pure (a : α) : Finding α := { outcome := .ok a }

/-- Goes on after what is found, unless the search has ended. -/
def bind (x : Finding α) (f : α → Finding β) : Finding β :=
  match x.outcome with
  | .error fault => ⟨x.problems, x.log, .error fault⟩
  | .ok a => ⟨x.problems ++ (f a).problems, x.log ++ (f a).log, (f a).outcome⟩

instance : Monad Finding where
  pure := pure
  bind := bind

/-- Finds a problem. -/
def problem (p : Problem) : Finding Unit := { problems := [p], outcome := .ok () }

/-- Warns of something. -/
def warning (message : String) : Finding Unit :=
  { log := Log.warning message, outcome := .ok () }

/-- Takes a text that goes into a message. -/
def wording (text : Except Number.IntegerFault String) : Finding String := { outcome := text }

theorem bind_ok (problems : List Problem) (log : Log) (a : α) (f : α → Finding β) :
    (⟨problems, log, .ok a⟩ >>= f : Finding β) =
      ⟨problems ++ (f a).problems, log ++ (f a).log, (f a).outcome⟩ := rfl

theorem bind_error (problems : List Problem) (log : Log) (fault : Number.IntegerFault)
    (f : α → Finding β) :
    (⟨problems, log, .error fault⟩ >>= f : Finding β) = ⟨problems, log, .error fault⟩ := rfl

instance : LawfulMonad Finding := LawfulMonad.mk' Finding
  (by
    intro α x
    obtain ⟨problems, log, outcome⟩ := x
    cases outcome <;> simp [Functor.map, bind, pure])
  (by intro α β a f; simp [Bind.bind, Pure.pure, bind, pure])
  (by
    intro α β γ x f g
    obtain ⟨problems, log, outcome⟩ := x
    cases outcome with
    | error fault => rfl
    | ok a => cases h : (f a).outcome <;> simp [Bind.bind, bind, h])

end Finding

end Runbook.Document
