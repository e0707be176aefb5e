import Runbook.CommandLine.Arguments
import Runbook.Log

/-!
# Commands

A command runs the workflow of a document or only checks the document. Its options say which modules
of operations are loaded, what is written, and how much of the log is shown.
-/

namespace Runbook.CommandLine

/-- How a summary is laid out. -/
inductive SummaryLayout where
  /-- No summary is shown. -/
  | hidden
  /-- As JSON. -/
  | json
  /-- As a document with headings. -/
  | markdown
  deriving DecidableEq, Repr

/-- The layout of a name. -/
def SummaryLayout.ofName? : String → Option SummaryLayout
  | "none" => some .hidden
  | "json" => some .json
  | "markdown" => some .markdown
  | _ => none

/-- The level of a name that the options know. -/
def levelOfName? : String → Option Level
  | "debug" => some .debug
  | "info" => some .info
  | "warn" => some .warning
  | "error" => some .error
  | _ => none

/-- How much of the log is to be shown. -/
structure Verbosity where
  /-- Everything. -/
  debug : Bool := false
  /-- Only failures, unless everything is asked for first. -/
  quiet : Bool := false
  /-- Everything, unless only failures are asked for. -/
  verbose : Bool := false
  /-- The level that counts when nothing else is asked for. -/
  level : Level := .info
  deriving DecidableEq, Repr

/-- The lowest level that is shown. -/
def Verbosity.threshold (v : Verbosity) : Level :=
  if v.debug then .debug
  else if v.quiet then .error
  else if v.verbose then .debug
  else v.level

/-- What the commands are told. -/
structure Options where
  /-- The workflow's document. -/
  workflow : Option String := none
  /-- The modules of operations, in the order in which they are loaded. -/
  modules : List String := []
  /-- Whether the workflow is only checked. -/
  dryRun : Bool := false
  /-- Whether outputs are delivered to files. -/
  write : Bool := true
  /-- How the summary is laid out. -/
  summary : SummaryLayout := .hidden
  /-- The file that the summary is written to. -/
  summaryFile : Option String := none
  /-- How much of the log is shown. -/
  verbosity : Verbosity := {}
  deriving DecidableEq, Repr

/-- What an option of the commands is for. -/
inductive Meaning where
  /-- Asks for help. -/
  | help
  /-- Names a module of operations. -/
  | operations
  /-- Only checks the workflow. -/
  | dryRun
  /-- Delivers nothing. -/
  | noWrite
  /-- Chooses the layout of the summary. -/
  | summary
  /-- Names the file of the summary. -/
  | summaryFile
  /-- Shows the whole log. -/
  | debug
  /-- Shows failures only. -/
  | quiet
  /-- Shows the whole log. -/
  | verbose
  /-- Chooses the level of the log. -/
  | logLevel
  deriving DecidableEq, Repr

/-- The options of every command. -/
def commonOptions : List (OptionSpec Meaning) :=
  [⟨"-h", .help, false⟩, ⟨"--help", .help, false⟩, ⟨"--debug", .debug, false⟩,
    ⟨"--quiet", .quiet, false⟩, ⟨"--verbose", .verbose, false⟩, ⟨"--log-level", .logLevel, true⟩]

/-- The arguments of the command that checks a document. -/
def validateGrammar : Grammar Meaning := ⟨commonOptions, .one⟩

/-- The arguments of the command that runs a workflow. -/
def runGrammar : Grammar Meaning :=
  ⟨commonOptions ++
    [⟨"--operations", .operations, true⟩, ⟨"--dry-run", .dryRun, false⟩,
      ⟨"--no-write", .noWrite, false⟩, ⟨"--summary", .summary, true⟩,
      ⟨"--summary-file", .summaryFile, true⟩], .one⟩

/-- Options with the verbosity changed. -/
def Options.withVerbosity (o : Options) (change : Verbosity → Verbosity) : Options :=
  { o with verbosity := change o.verbosity }

/-- Options as an option without a value changes them. -/
def Options.applyFlag (o : Options) : Meaning → Except Refusal Options
  | .help => .error .help
  | .dryRun => .ok { o with dryRun := true }
  | .noWrite => .ok { o with write := false }
  | .debug => .ok (o.withVerbosity fun v => { v with debug := true })
  | .quiet => .ok (o.withVerbosity fun v => { v with quiet := true })
  | .verbose => .ok (o.withVerbosity fun v => { v with verbose := true })
  | _ => .ok o

/-- Options as an option with a value changes them, unless the value is none that it takes. -/
def Options.applyValue? (o : Options) (value : String) : Meaning → Option Options
  | .operations => some { o with modules := o.modules ++ [value] }
  | .summary => (SummaryLayout.ofName? value).map fun layout => { o with summary := layout }
  | .summaryFile => some { o with summaryFile := some value }
  | .logLevel => (levelOfName? value).map fun level => o.withVerbosity ({ · with level := level })
  | _ => some o

/-- Options as a piece of the arguments changes them. -/
def Options.apply (o : Options) : Item Meaning → Except Refusal Options
  | .operand text => .ok { o with workflow := some text }
  | .option spec none => o.applyFlag spec.meaning
  | .option spec (some value) =>
    match o.applyValue? value spec.meaning with
    | some o => .ok o
    | none => .error (.fault (.badValue spec.name value))

/-- What is done with the workflow of a document. -/
inductive Verb where
  /-- It is run. -/
  | run
  /-- It is checked and its steps are listed. -/
  | validate
  deriving DecidableEq, Repr

/-- The verb of a name. -/
def Verb.ofName? : String → Option Verb
  | "run" => some .run
  | "validate" => some .validate
  | _ => none

/-- The arguments that a verb takes. -/
def Verb.grammar : Verb → Grammar Meaning
  | .run => runGrammar
  | .validate => validateGrammar

/-- A command. -/
structure Command where
  /-- What is done. -/
  verb : Verb
  /-- The path of the workflow's document. -/
  workflow : String
  /-- What else the command is told. -/
  options : Options
  deriving DecidableEq, Repr

/-- The options in front of the verb. -/
def leadingOptions : List (OptionSpec Meaning) :=
  [⟨"-h", .help, false⟩, ⟨"--help", .help, false⟩]

/-- The command of a verb and of the arguments behind it; `unused` are the arguments before the verb
that there was no use for. -/
def Command.ofVerb (unused : List String) (verb : Verb) (arguments : List String) :
    Except Refusal Command :=
  match verb.grammar.read Options.apply {} arguments with
  | .error refusal => .error refusal
  | .ok (o, more) =>
    match o.workflow, unused ++ more with
    | none, _ => .error (.fault (.missing "workflow"))
    | some workflow, [] => .ok ⟨verb, workflow, o⟩
    | some _, arguments => .error (.fault (.unrecognized arguments))

/-- The command that arguments give; `unused` are the arguments so far that there was no use for. -/
def Command.ofRest (unused : List String) : List String → Except Refusal Command
  | [] => if unused.isEmpty then .error .nothing else .error (.fault (.unrecognized unused))
  | "--" :: _ => .error (.fault (.noCommand "--"))
  | text :: texts =>
    match classify leadingOptions text with
    | .error fault => .error (.fault fault)
    | .ok (.operand name) =>
      match Verb.ofName? name with
      | some verb => ofVerb unused verb texts
      | none => .error (.fault (.noCommand name))
    | .ok (.option spec (some _)) => .error (.fault (.unexpectedValue spec.name))
    | .ok (.letters spec letters) =>
      match cluster? leadingOptions letters with
      | some _ => .error .help
      | none => .error (.fault (.unexpectedValue spec.name))
    | .ok (.option _ none) => .error .help
    | .ok _ => ofRest (unused ++ [text]) texts

/-- The command that arguments give. -/
def Command.ofArguments (arguments : List String) : Except Refusal Command :=
  ofRest [] arguments

end Runbook.CommandLine
