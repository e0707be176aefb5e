/-!
# The log

What a program reports while it works: messages, each of a level, in the order in which they arise.
-/

namespace Runbook

/-- How much a message matters, from the least to the most. -/
inductive Level where
  /-- A detail of the work. -/
  | debug
  /-- A stage of the work. -/
  | info
  /-- Something that may be a mistake. -/
  | warning
  /-- Something that failed. -/
  | error
  deriving DecidableEq, Repr, Inhabited

/-- The rank of a level. -/
def Level.rank : Level → Nat
  | .debug => 0
  | .info => 1
  | .warning => 2
  | .error => 3

/-- The name of a level. -/
def Level.name : Level → String
  | .debug => "DEBUG"
  | .info => "INFO"
  | .warning => "WARNING"
  | .error => "ERROR"

/-- A message of the log. -/
structure LogEntry where
  /-- How much the message matters. -/
  level : Level
  /-- What the message says. -/
  message : String
  deriving DecidableEq, Repr, Inhabited

/-- The messages in order. -/
abbrev Log := List LogEntry

namespace Log

/-- One message about a detail. -/
def debug (message : String) : Log := [⟨.debug, message⟩]

/-- One message about a stage. -/
def info (message : String) : Log := [⟨.info, message⟩]

/-- One message about a possible mistake. -/
def warning (message : String) : Log := [⟨.warning, message⟩]

/-- One message about a failure. -/
def error (message : String) : Log := [⟨.error, message⟩]

/-- The messages that matter at least as much as a level. -/
def atLeast (level : Level) (log : Log) : Log :=
  log.filter fun entry => level.rank ≤ entry.level.rank

end Log

end Runbook
