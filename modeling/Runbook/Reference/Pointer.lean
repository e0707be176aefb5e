import Runbook.Json.Parser
import Runbook.Number.Integer
import Runbook.Results
import Runbook.Text.Split

/-!
# Pointers into captured outputs

A pointer is the name of a step and an output, perhaps with a dotted path. Without a path it stands
for the captured text, with one for the value at the path in the JSON that the text denotes. A
segment of a path names a member of an object or, if it is made of digits, an item of an array.
-/

namespace Runbook.Pointer

/-- Why a pointer leads nowhere. -/
inductive Unresolved where
  /-- The step has captured nothing. -/
  | missingStep (step : String)
  /-- The step has no such output. -/
  | missingOutput (step output : String)
  /-- The output is no JSON. -/
  | notJson (step output : String) (error : Json.Error)
  /-- An object has no such member. -/
  | missingKey (path key : String)
  /-- An array has no such item. -/
  | outOfRange (path : String) (index : Int)
  /-- What should hold the segment has no members, or is an array and the segment no digits. -/
  | noMember (path segment : String)
  deriving DecidableEq, Repr

/-- The wording of a reason. -/
def Unresolved.message : Unresolved → String
  | .missingStep step => s!"referenced step '{step}' has not produced outputs"
  | .missingOutput step output => s!"step '{step}' does not contain output '{output}'"
  | .notJson step output error =>
    s!"step '{step}' output '{output}': output is not valid JSON: {error.message}"
  | .missingKey path key => s!"field '{path}' not found - missing key '{key}'"
  | .outOfRange path index => s!"field '{path}' not found - index {index} out of range"
  | .noMember path segment => s!"field '{path}' not found - '{segment}' is not an object"

/-- Why following a pointer stops: it leads nowhere, or a segment of digits is no index that can be
read. -/
inductive Error where
  /-- The pointer leads nowhere. -/
  | unresolved (reason : Unresolved)
  /-- A segment of digits cannot be read as an index. -/
  | index (fault : Number.IntegerFault)
  deriving DecidableEq, Repr

/-- The wording of an error. -/
def Error.message : Error → String
  | .unresolved reason => reason.message
  | .index fault => fault.message

/-- Follows one segment; `path` is the whole path as messages show it. -/
def follow (path : String) (current : Json) (segment : String) : Except Error Json :=
  match current with
  | .object members =>
    match Json.member? segment members with
    | some value => .ok value
    | none => .error (.unresolved (.missingKey path segment))
  | .array items =>
    if Text.isDigits segment.toList then
      match Number.readInteger 10 segment with
      | .error fault => .error (.index fault)
      | .ok index =>
        match items[index.toNat]? with
        | some value => .ok value
        | none => .error (.unresolved (.outOfRange path index))
    else .error (.unresolved (.noMember path segment))
  | _ => .error (.unresolved (.noMember path segment))

/-- Follows segments one after the other. -/
def followAll (path : String) : Json → List String → Except Error Json
  | current, [] => .ok current
  | current, segment :: segments =>
    match follow path current segment with
    | .error e => .error e
    | .ok next => followAll path next segments

/-- Follows a dotted path into a value. Messages show `fullPath`, or the path itself if that is
empty. -/
def navigate (data : Json) (path fullPath : String) : Except Error Json :=
  followAll (if fullPath.isEmpty then path else fullPath) data (Text.splitAt '.' path)

/-- The output's name and, if there is a point, the path after it. -/
def splitOutput (output : String) : String × Option String :=
  match Text.cut? '.' output.toList with
  | none => (output, none)
  | some (name, path) => (String.ofList name, some (String.ofList path))

/-- The value that a pointer stands for. -/
def resolve (results : Results) (step output : String) : Except Error Json :=
  match results.lookup step with
  | none => .error (.unresolved (.missingStep step))
  | some outputs =>
    let (name, path?) := splitOutput output
    match outputs.lookup name with
    | none => .error (.unresolved (.missingOutput step name))
    | some captured =>
      -- Only a path asks for JSON; without one the text is taken as it is.
      match path? with
      | none => .ok (.string captured.value)
      | some path =>
        match Json.parse .strict captured.value with
        | .error e => .error (.unresolved (.notJson step output e))
        | .ok data => navigate data path (step ++ "." ++ output)

/-- The value that a pointer stands for or the reason why there is none; only an index that cannot
be read is still an error. -/
def resolveSafe (results : Results) (step output : String) :
    Except Number.IntegerFault (Except Unresolved Json) :=
  match resolve results step output with
  | .ok value => .ok (.ok value)
  | .error (.unresolved reason) => .ok (.error reason)
  | .error (.index fault) => .error fault

end Runbook.Pointer
