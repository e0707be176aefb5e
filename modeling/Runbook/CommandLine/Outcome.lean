import Runbook.Document.Loader
import Runbook.Operation.Catalogue
import Runbook.Run.Step

/-!
# Outcomes of commands

A command ends with an exit code, or with trouble that it does not answer for. Beside that it shows
text, logs, calls operations and changes files.
-/

namespace Runbook.CommandLine

/-- What comes in the way of a command. -/
inductive Trouble where
  /-- The document cannot be loaded. -/
  | load (error : Document.LoadError)
  /-- A file cannot be reached. -/
  | file (error : FileTree.Error)
  /-- A file holds no text. -/
  | encoding (fault : Text.Utf8.Fault)
  /-- A module of operations cannot be loaded. -/
  | catalogue (error : Catalogue.Error)
  /-- An integer cannot be read or shown. -/
  | integer (fault : Number.IntegerFault)
  deriving DecidableEq, Repr

namespace Trouble

/-- The wording of trouble. -/
def message : Trouble → String
  | .load error => error.message
  | .file error => error.message
  | .encoding fault => fault.message
  | .catalogue error => error.message
  | .integer fault => fault.message

/-- Where trouble comes from. -/
inductive Origin where
  /-- A module of operations is missing. -/
  | modules
  /-- A value is none that is accepted. -/
  | value
  /-- Anything else. -/
  | other
  deriving DecidableEq, Repr

/-- Where an error comes from that arises while loading a document. -/
def ofLoading : Document.LoadError → Origin
  | .invalid _ => .other
  | .scalar fault => if fault.isReported then .value else .other
  | .integer _ => .value
  | .endless _ => .other
  | .encoding _ => .value
  | .nullCharacter => .value

/-- Where an error comes from that arises while loading modules. -/
def ofCatalogue : Catalogue.Error → Origin
  | .noModule _ => .modules
  | .notPackage .. => .modules
  | .relativeName _ => .other
  | _ => .value

/-- Where trouble comes from. -/
def origin : Trouble → Origin
  | .load error => ofLoading error
  | .file .nullCharacter => .value
  | .file (.refused ..) => .other
  | .encoding _ => .value
  | .catalogue error => ofCatalogue error
  | .integer _ => .value

/-- What trouble of an origin is announced with. -/
def Origin.heading : Origin → String
  | .modules => "Could not load operations"
  | .value => "Validation error"
  | .other => "Unexpected error"

/-- The exit code that trouble of an origin leads to. -/
def Origin.exitCode : Origin → Nat
  | .modules => 1
  | .value => 2
  | .other => 1

end Trouble

/-- What comes of a command in a world. -/
structure Outcome (σ : Type) where
  /-- The files. -/
  tree : FileTree
  /-- The state of the world. -/
  world : σ
  /-- The text that was shown. -/
  shown : String := ""
  /-- What was logged. -/
  log : Log := []
  /-- The calls of operations. -/
  calls : List Call := []
  /-- The exit code, or the trouble that the command does not answer for. -/
  ending : Except Trouble Nat := .ok 0

namespace Outcome

variable {σ : Type}

/-- Adds to what was logged. -/
def report (o : Outcome σ) (log : Log) : Outcome σ :=
  { o with log := o.log ++ log }

/-- Ends with an exit code. -/
def exit (o : Outcome σ) (code : Nat) : Outcome σ :=
  { o with ending := .ok code }

/-- Ends with an error in the log and an exit code. -/
def fail (o : Outcome σ) (message : String) (code : Nat) : Outcome σ :=
  (o.report (Log.error message)).exit code

/-- Ends with trouble that nobody answers for. -/
def escape (o : Outcome σ) (trouble : Trouble) : Outcome σ :=
  { o with ending := .error trouble }

/-- Ends with trouble that is announced in the log. -/
def announce (o : Outcome σ) (trouble : Trouble) : Outcome σ :=
  o.fail s!"{trouble.origin.heading}: {trouble.message}" trouble.origin.exitCode

end Outcome

end Runbook.CommandLine
