import Runbook.Operation.Basic
import Runbook.Text.Blank

/-!
# The registry of operations

Operations by name. A name that is registered again keeps its place and takes the new operation.
-/

namespace Runbook

/-- Operations by name, in the order in which the names were registered. -/
structure Registry (σ : Type) where
  /-- The operations. -/
  operations : List (String × Behaviour σ) := []

namespace Registry

variable {σ : Type}

/-- Why an operation cannot be registered. -/
inductive Error where
  /-- The name is blank. -/
  | blankName
  /-- What is to be registered cannot be called. -/
  | notCallable (name : String)
  deriving DecidableEq, Repr

/-- The wording of an error. -/
def Error.message : Error → String
  | .blankName => "Operation name cannot be empty"
  | .notCallable name => s!"Operation '{name}' must be callable"

/-- The operation of a name. -/
def get? (r : Registry σ) (name : String) : Option (Behaviour σ) :=
  r.operations.lookup name

/-- Whether an operation has a name. -/
def has (r : Registry σ) (name : String) : Bool :=
  r.operations.any (·.1 == name)

/-- The names in alphabetical order. -/
def names (r : Registry σ) : List String :=
  (r.operations.map Prod.fst).mergeSort fun a b => a ≤ b

/-- Puts an operation under a name. -/
def put (r : Registry σ) (name : String) (behaviour : Behaviour σ) : Registry σ :=
  ⟨putEntry r.operations⟩
where
  /-- Replaces the operation of the name, or adds the name. -/
  putEntry : List (String × Behaviour σ) → List (String × Behaviour σ)
    | [] => [(name, behaviour)]
    | (n, b) :: rest => if n = name then (n, behaviour) :: rest else (n, b) :: putEntry rest

/-- What is logged when an operation is put under a name. -/
def registered (r : Registry σ) (name : String) : Log :=
  (if r.has name then Log.warning s!"Replacing registered operation: {name}" else []) ++
    Log.debug s!"Registered operation: {name}"

/-- Registers an operation; `none` stands for something that cannot be called. -/
def register (r : Registry σ) (name : String) (behaviour : Option (Behaviour σ)) :
    Except Error (Registry σ × Log) :=
  if Text.isBlank name then .error .blankName
  else
    match behaviour with
    | none => .error (.notCallable name)
    | some behaviour => .ok (r.put name behaviour, r.registered name)

/-- Registers operations one after the other up to the first that cannot be. -/
def registerAll (r : Registry σ) :
    List (String × Option (Behaviour σ)) → Registry σ × Log × Option Error
  | [] => (r, [], none)
  | (name, behaviour) :: rest =>
    match r.register name behaviour with
    | .error e => (r, [], some e)
    | .ok (r, log) =>
      let (r, more, e?) := registerAll r rest
      (r, log ++ more, e?)

/-- Calls the operation of a name. -/
def invoke (r : Registry σ) (name : String) (parameters : Parameters) (context : Context)
    (world : σ) : Except Failure Value × σ :=
  match r.get? name with
  | none => (.error (.notFound name r.names), world)
  | some behaviour => behaviour parameters context world

end Registry

end Runbook
