import Runbook.Document.Reader
import Runbook.Document.Step
import Runbook.Reference.Placeholder
import Runbook.TextFile
import Runbook.Value.Nesting

/-!
# Workflows from documents

A document that is a map with a list of steps makes a workflow. Every problem of the definition is
found and all are reported together. A loader reads one document after the other; the problem of a
text that is no document joins those of the document before.
-/

namespace Runbook.Document

/-- Problems with the further ones whose wording is not among them yet. -/
def withFurther (problems : List Problem) : List Problem → List Problem
  | [] => problems
  | p :: ps =>
    if problems.any (·.message == p.message) then withFurther problems ps
    else withFurther (problems ++ [p]) ps

/-- The placeholders of a step: those of its parameters, then those of its loop's input. -/
def references (step : Step) : List Reference :=
  Reference.ofEntries step.parameters ++
    (match step.loop with
      | some loop => Reference.ofText loop.inputData
      | none => [])

/-- What is logged of a step's placeholders that name none of the steps `declared` before it. -/
def forwardWarnings (declared : List String) (step : Step) : Log :=
  ((references step).filter fun r => !declared.contains r.step).flatMap fun r =>
    let shown := String.ofList r.text
    Log.warning <|
      s!"Step '{step.name}' references '{shown}' but '{r.step}' is not declared before it"

/-- What is logged of placeholders that name no step declared before; `declared` are the names of
earlier steps. -/
def forwardReferences (declared : List String) : List Step → Log
  | [] => []
  | step :: steps =>
    forwardWarnings declared step ++ forwardReferences (declared ++ [step.name]) steps

/-- Why a document makes no workflow. -/
inductive LoadError where
  /-- The definition has problems. -/
  | invalid (problems : List Problem)
  /-- An integer cannot be shown in a message. -/
  | integer (fault : Number.IntegerFault)
  /-- A scalar of the document denotes no value of its type. -/
  | scalar (fault : Yaml.Fault)
  /-- The parameters of a step have no end; the depth limit is reached at a map, or else a list. -/
  | endless (atMap : Bool)
  /-- The document is no text. -/
  | encoding (fault : Text.Utf8.Fault)
  /-- The path of the document holds the null character. -/
  | nullCharacter
  deriving DecidableEq, Repr

/-- The wording of an error. -/
def LoadError.message : LoadError → String
  | .invalid problems => Problem.summary problems
  | .integer fault => fault.message
  | .scalar fault => fault.message
  | .endless true => Yaml.Fault.endless.message ++ " while calling a Python object"
  | .endless false => Yaml.Fault.endless.message
  | .encoding fault => fault.message
  | .nullCharacter => FileTree.Error.nullCharacter.message

/-- What comes of loading a document. -/
structure Loading where
  /-- What is logged. -/
  log : Log := []
  /-- The problems that are found. -/
  problems : List Problem := []
  /-- The workflow, unless it cannot be made. -/
  outcome : Except LoadError Workflow

namespace Loading

/-- Loading that ends with an error before anything is found in a document. -/
def failed (e : LoadError) : Loading := { outcome := .error e }

/-- Loading that ends with problems, of which there are some. -/
def refused (log : Log) (problems : List Problem) : Loading :=
  ⟨log, problems, .error (.invalid problems)⟩

/-- Loading that stops at one problem of the whole document. -/
def stopped (message : String) : Loading := refused [] [⟨message, "", 2⟩]

end Loading

/-- The field that holds the steps. -/
def stepsField : String := "Steps"

/-- What is found in a map's entries and in the values of its steps. -/
def findSteps (entries : Entries) (steps : List Value) : Finding (List Step) := do
  unknownFields [stepsField] (fun key => s!"Ignoring unknown top-level field '{key}'") entries
  readSteps 0 steps

/-- The workflow of a map's entries and of the values of its steps. -/
def workflowOf (sourcePath : Option Path) (entries : Entries) (steps : List Value) : Loading :=
  let found := findSteps entries steps
  match found.outcome with
  | .error fault => ⟨found.log, found.problems, .error (.integer fault)⟩
  | .ok steps =>
    let w : Workflow := { steps := steps, sourcePath := sourcePath }
    -- Steps that were read in spite of problems may have further ones as a workflow.
    match withFurther found.problems w.problems with
    | [] => { log := found.log, outcome := .ok w }
    | problems => .refused found.log problems

/-- The workflow that a document defines, before placeholders are looked for. -/
def define (document : Value) (sourcePath : Option Path) : Loading :=
  match document with
  | .map entries =>
    let steps := field entries stepsField
    if isVoid steps then .stopped "'Steps' field is required and must not be empty"
    else
      match steps with
      | .list items => workflowOf sourcePath entries items
      | _ => .stopped "'Steps' must be a list"
  | _ => .stopped "Workflow must be a JSON/YAML object"

namespace Loading

/-- Looks for placeholders that name no step declared before. -/
def withReferences (l : Loading) : Loading :=
  match l.outcome with
  | .ok w => { l with log := l.log ++ forwardReferences [] w.steps }
  | .error _ => l

/-- The error that a step leads to whose parameters have no end. -/
def endless? (step : Step) : Option LoadError :=
  (Value.map step.parameters).beyondLimit?.map fun
    | .map _ => .endless true
    | _ => .endless false

/-- Looks for placeholders up to the first step whose parameters have no end. -/
def withReachableReferences (l : Loading) : Loading :=
  match l.outcome with
  | .ok w =>
    let (reachable, rest) := w.steps.span fun step => (endless? step).isNone
    match rest.head?.bind endless? with
    | none => l.withReferences
    | some e => { l with log := l.log ++ forwardReferences [] reachable, outcome := .error e }
  | .error _ => l

end Loading

/-- The workflow that a document makes. -/
def toWorkflow (document : Value) (sourcePath : Option Path) : Loading :=
  (define document sourcePath).withReferences

/-- The workflow that a document makes which was read from a text, where a collection may stand
within itself. -/
def textToWorkflow (document : Value) (sourcePath : Option Path) : Loading :=
  (define document sourcePath).withReachableReferences

/-- The value of a text, or the error that loading it ends with. -/
def decode (s : String) (path : Option Path) : Except LoadError Value :=
  match read s with
  | .ok v => .ok v
  | .error (.unreadable json) =>
    .error (.invalid [⟨Error.message path (.unreadable json), "", 2⟩])
  | .error (.scalar fault) => .error (.scalar fault)

/-- The text of the document that a path leads to. -/
def readFile (tree : FileTree) (path : Path) : Except LoadError String :=
  match tree.readText path with
  | .ok s => .ok s
  | .error (.encoding fault) => .error (.encoding fault)
  | .error (.file .nullCharacter) => .error .nullCharacter
  | .error (.file e) => .error (.invalid [⟨s!"Failed to load workflow: {e.message}", "", 2⟩])

/-- The problems of a document that cannot be read; other errors are no problems of a definition. -/
def LoadError.problems : LoadError → List Problem
  | .invalid problems => problems
  | _ => []

/-- The workflow of the document that a path leads to. -/
def loadFile (tree : FileTree) (path : Path) : Loading :=
  if path.holdsNull then .failed .nullCharacter
  else
    let path := tree.resolve path
    match readFile tree path with
    | .error e => { Loading.failed e with problems := e.problems }
    | .ok s =>
      match decode s (some path) with
      | .error e => { Loading.failed e with problems := e.problems }
      | .ok v => textToWorkflow v (some path)

/-- Reads documents one after the other. -/
structure Loader where
  /-- The problems found since a document was last begun. -/
  problems : List Problem := []
  deriving Repr

namespace Loader

/-- Reads a text; a text that is no document adds a problem to those found before. -/
def parse (loader : Loader) (s : String) (path : Option Path) : Loader × Except LoadError Value :=
  match decode s path with
  | .ok v => (loader, .ok v)
  | .error (.invalid problems) =>
    let problems := loader.problems ++ problems
    (⟨problems⟩, .error (.invalid problems))
  | .error e => (loader, .error e)

/-- Makes a workflow of a document. -/
def loadDocument (_ : Loader) (document : Value) : Loader × Loading :=
  let loading := toWorkflow document none
  (⟨loading.problems⟩, loading)

/-- Reads a text and makes a workflow of it. -/
def loadText (loader : Loader) (s : String) : Loader × Loading :=
  match loader.parse s none with
  | (loader, .error e) => (loader, { Loading.failed e with problems := loader.problems })
  | (_, .ok document) =>
    let loading := textToWorkflow document none
    (⟨loading.problems⟩, loading)

/-- Reads the file that a path leads to and makes a workflow of it. -/
def loadFile (_ : Loader) (tree : FileTree) (path : Path) : Loader × Loading :=
  let loading := Document.loadFile tree path
  (⟨loading.problems⟩, loading)

end Loader

end Runbook.Document
