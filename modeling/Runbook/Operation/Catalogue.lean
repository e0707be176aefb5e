import Runbook.Operation.Registry
import Runbook.Text.Quoted
import Runbook.Text.Split

/-!
# Modules of operations

A catalogue holds modules by dotted name. A module that has a hook registers its operations when it
is loaded into a registry.
-/

namespace Runbook

/-- What a module offers. -/
inductive Module (σ : Type) where
  /-- Operations to register; `none` stands for something that cannot be called. -/
  | operations (entries : List (String × Option (Behaviour σ)))
  /-- Nothing: the hook is missing or cannot be called. -/
  | withoutHook

/-- Modules by name. -/
abbrev Catalogue (σ : Type) := List (String × Module σ)

namespace Catalogue

variable {σ : Type}

/-- Why a module cannot be loaded. -/
inductive Error where
  /-- There is no module of this name. -/
  | noModule (name : String)
  /-- There is no module of this name, for the one that should contain it contains none. -/
  | notPackage (name parent : String)
  /-- The name is empty. -/
  | emptyName
  /-- The name begins with a point, and there is nothing that it could start from. -/
  | relativeName (name : String)
  /-- The module registers nothing. -/
  | noHook (name : String)
  /-- One of the module's operations cannot be registered. -/
  | registry (error : Registry.Error)
  deriving DecidableEq, Repr

/-- The wording of an error. -/
def Error.message : Error → String
  | .noModule name => s!"No module named {Text.quoted name}"
  | .notPackage name parent =>
    s!"No module named {Text.quoted name}; {Text.quoted parent} is not a package"
  | .emptyName => "Empty module name"
  | .relativeName name =>
    "the 'package' argument is required to perform a relative import for " ++ Text.quoted name
  | .noHook name => s!"Module '{name}' does not define register_operations(registry)"
  | .registry error => error.message

/-- The name that segments, the last one first, make up. -/
def nameOf (segments : List String) : String :=
  Text.join "." segments.reverse

/-- The module whose name is made up of segments, the last one first. When it is missing, the error
is about the shortest part of the name that is missing. -/
def locate (c : Catalogue σ) : List String → Except Error (Module σ)
  | [] => .error .emptyName
  | segment :: parents =>
    match c.lookup (nameOf (segment :: parents)) with
    | some m => .ok m
    | none =>
      if parents.isEmpty then .error (.noModule segment)
      else
        match locate c parents with
        | .error e => .error e
        | .ok _ => .error (.notPackage (nameOf (segment :: parents)) (nameOf parents))

/-- The module of a name. -/
def find (c : Catalogue σ) (name : String) : Except Error (Module σ) :=
  if name.isEmpty then .error .emptyName
  else if name.toList.head? == some '.' then .error (.relativeName name)
  else c.locate (Text.splitAt '.' name).reverse

/-- A registry after loading, what was logged, and the names that were added or the error that ended
the loading. Operations registered before an error stay. -/
structure Loading (σ : Type) where
  /-- The registry. -/
  registry : Registry σ
  /-- What was logged. -/
  log : Log
  /-- The new names in alphabetical order, or the error. -/
  outcome : Except Error (List String)

/-- Lets the module of a name register its operations. -/
def load (c : Catalogue σ) (r : Registry σ) (name : String) : Loading σ :=
  match c.find name with
  | .error e => ⟨r, [], .error e⟩
  | .ok .withoutHook => ⟨r, [], .error (.noHook name)⟩
  | .ok (.operations entries) =>
    match r.registerAll entries with
    | (after, log, some e) => ⟨after, log, .error (.registry e)⟩
    | (after, log, none) =>
      let added := after.names.filter fun n => !r.has n
      ⟨after, log ++ Log.info s!"Loaded {added.length} operations from {name}", .ok added⟩

/-- Loads modules one after the other into a registry up to the first that cannot be loaded. -/
def loadAll (c : Catalogue σ) (r : Registry σ) : List String → Registry σ × Log × Option Error
  | [] => (r, [], none)
  | name :: names =>
    let loading := c.load r name
    match loading.outcome with
    | .error e => (loading.registry, loading.log, some e)
    | .ok _ =>
      let (r, log, e?) := loadAll c loading.registry names
      (r, loading.log ++ log, e?)

end Catalogue

end Runbook
