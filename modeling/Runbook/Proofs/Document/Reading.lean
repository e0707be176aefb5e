import Runbook.Document.Loader

/-!
# What is found in a document

A step's document has places, and each place has a rule. The module sets the rules down without the
search for problems, and it says what the search comes to: at every place whose rule is broken a
problem with the wording for that place, and a step that is made of what the fields hold, with
something that stands in for what cannot be used.

The module introduces:

* `Document.Place` and `Document.breaksField`: the places of a step's document and their rules;
* `Document.wording`: the wording of the problem at a place;
* `Document.stepOf`: the step that is read, whatever rules are broken;
* `Document.stepShown`: whether the keys that messages show can be shown;
* `Finding.Gives`: what a search comes to, its log aside.

The main result is `Document.findSteps_gives`.
-/

namespace Runbook.Document

/-! ## The outcome of a search -/

namespace Finding

variable {α β : Type}

/-- A search finds these problems and this meaning if what its messages show can be `shown`, and
otherwise it ends before. -/
structure Gives (x : Finding α) (shown : Bool) (problems : List Problem) (a : α) : Prop where
  /-- The problems. -/
  problems : shown = true → x.problems = problems
  /-- The meaning. -/
  outcome : shown = true → x.outcome = .ok a
  /-- The search ends at an integer that is too long to be shown. -/
  ends : shown = false → x.outcome = .error .tooLongToWrite

theorem gives_pure (a : α) : (Pure.pure a : Finding α).Gives true [] a :=
  ⟨fun _ => rfl, fun _ => rfl, nofun⟩

/-- One search after the other finds the problems of both. -/
theorem Gives.bind {x : Finding α} {f : α → Finding β} {shown shown' : Bool}
    {problems problems' : List Problem} {a : α} {b : β} (h : x.Gives shown problems a)
    (hnext : (f a).Gives shown' problems' b) :
    (x >>= f).Gives (shown && shown') (problems ++ problems') b := by
  obtain ⟨found, log, outcome⟩ := x
  cases shown with
  | false =>
    obtain rfl : outcome = .error .tooLongToWrite := h.ends rfl
    exact ⟨nofun, nofun, fun _ => rfl⟩
  | true =>
    obtain rfl : found = problems := h.problems rfl
    obtain rfl : outcome = .ok a := h.outcome rfl
    rw [bind_ok, Bool.true_and]
    exact ⟨fun hshown => congrArg (found ++ ·) (hnext.problems hshown), hnext.outcome, hnext.ends⟩

/-- What is made of what a search finds adds no problems. -/
theorem Gives.bind_pure {x : Finding α} {shown : Bool} {problems : List Problem} {a : α}
    (h : x.Gives shown problems a) (f : α → β) :
    (x >>= fun a => Pure.pure (f a)).Gives shown problems (f a) := by
  have hbind := h.bind (f := fun a => Pure.pure (f a)) (gives_pure (f a))
  rwa [Bool.and_true, List.append_nil] at hbind

/-- A problem at a place of a step. -/
theorem problemAt_gives (index : Nat) (place message : String) (a : α) :
    (problemAt index place message a).Gives true
      [⟨message, Workflow.fieldPath index place, 2⟩] a :=
  ⟨fun _ => rfl, fun _ => rfl, nofun⟩

/-- The text of a value goes into a message. -/
theorem gives_plain (v : Value) :
    (wording v.plain?).Gives (!v.holdsLongInteger) [] v.plain := by
  unfold Value.plain?
  cases v.holdsLongInteger with
  | false => exact ⟨fun _ => rfl, fun _ => rfl, nofun⟩
  | true => exact ⟨nofun, nofun, fun _ => rfl⟩

/-- The written form of a value goes into a message. -/
theorem gives_written (v : Value) :
    (wording v.written?).Gives (!v.holdsLongInteger) [] v.written := by
  unfold Value.written?
  cases v.holdsLongInteger with
  | false => exact ⟨fun _ => rfl, fun _ => rfl, nofun⟩
  | true => exact ⟨nofun, nofun, fun _ => rfl⟩

end Finding

/-! ## Places and rules -/

/-- A place in the document of a step: the step itself, or one of its fields. -/
inductive Place where
  | step
  | name
  | type
  | parameters
  | enabled
  | output
  | outputName
  | outputFormat
  | loop
  | loopInput
  | loopItem
  | outputFilePath
  deriving DecidableEq, Repr

namespace Place

/-- The places within a step, in the order in which they are looked at. -/
def fields : List Place :=
  [.name, .type, .parameters, .enabled, .output, .outputName, .outputFormat, .loop, .loopInput,
    .loopItem, .outputFilePath]

/-- The name of a place within a step. -/
def label : Place → String
  | .step => ""
  | .name => "Name"
  | .type => "Type"
  | .parameters => "Parameters"
  | .enabled => "Enabled"
  | .output => "Output"
  | .outputName => "Output.Name"
  | .outputFormat => "Output.Format"
  | .loop => "loop"
  | .loopInput => "loop.input_data"
  | .loopItem => "loop.item_name"
  | .outputFilePath => "output_file_path"

/-- A place of the step at a position, as problems name it. -/
def path (index : Nat) : Place → String
  | .step => s!"Steps[{index}]"
  | place => Workflow.fieldPath index place.label

theorem mem_fields_iff {p : Place} : p ∈ fields ↔ p ≠ .step := by
  cases p <;> decide

end Place

/-- The text that a value is, unless it is blank. -/
def filled? (v : Value) : Option String :=
  v.text?.filter fun s => !Text.isBlank s

/-- Whether there is nothing or a text. -/
def isOptionalText : Value → Bool
  | .null => true
  | v => v.text?.isSome

/-- Whether there is nothing or a map. -/
def isOptionalMap : Value → Bool
  | .null => true
  | .map _ => true
  | _ => false

/-- Whether there is nothing or a truth value. -/
def isOptionalTruth : Value → Bool
  | .null => true
  | .bool _ => true
  | _ => false

/-- Whether there is nothing or a map whose keys are texts. -/
def isOptionalParameters : Value → Bool
  | .null => true
  | .map entries => entries.all fun entry => entry.1.text?.isSome
  | _ => false

/-- The entries of a field that holds a map. -/
def mapAt (entries : Entries) (name : String) : Option Entries :=
  match field entries name with
  | .map inner => some inner
  | _ => none

/-- Whether a map breaks the rule of a place: names and types are texts that are not blank, as are
the input and the item name of a loop; the other fields may be missing. -/
def breaksField (entries : Entries) : Place → Bool
  | .step => false
  | .name => (filled? (field entries "Name")).isNone
  | .type => (filled? (field entries "Type")).isNone
  | .parameters => !isOptionalParameters (field entries "Parameters")
  | .enabled => !isOptionalTruth (field entries "Enabled")
  | .output => !isOptionalMap (field entries "Output")
  | .outputName => (mapAt entries "Output").any fun inner => !isOptionalText (field inner "Name")
  | .outputFormat =>
    (mapAt entries "Output").any fun inner => !isOptionalText (field inner "Format")
  | .loop => !isOptionalMap (field entries "loop")
  | .loopInput =>
    (mapAt entries "loop").any fun inner => (filled? (field inner "input_data")).isNone
  | .loopItem =>
    (mapAt entries "loop").any fun inner => (filled? (field inner "item_name")).isNone
  | .outputFilePath => !isOptionalText (field entries "output_file_path")

/-- Whether the document of a step breaks the rule of a place; a step is to be a map. -/
def breaks : Value → Place → Bool
  | .map entries, place => breaksField entries place
  | _, place => place == .step

/-! ## What is made of a step's document -/

/-- The name of the step at a position, or what stands for it. -/
def nameOf (index : Nat) (entries : Entries) : String :=
  (filled? (field entries "Name")).getD (placeholderName index)

/-- The type of a step; one that cannot be used is empty. -/
def typeOf (entries : Entries) : String :=
  (filled? (field entries "Type")).getD ""

/-- The parameters of a step, whatever their keys. -/
def parametersOf (entries : Entries) : Parameters :=
  (mapAt entries "Parameters").getD []

/-- Whether a step is enabled. -/
def enabledOf (entries : Entries) : Bool :=
  match field entries "Enabled" with
  | .bool b => b
  | _ => false

/-- The output that a map declares, if its name and its format can be used. -/
def declaredOutput? (entries : Entries) : Option Output :=
  if isOptionalText (field entries "Name") && isOptionalText (field entries "Format") then
    some ⟨(field entries "Name").text?.getD "",
      ((field entries "Format").text?.filter (!·.isEmpty)).getD "text"⟩
  else none

/-- The loop that a map declares, if its input and its item name can be used. -/
def declaredLoop? (entries : Entries) : Option Loop :=
  match filled? (field entries "input_data"), filled? (field entries "item_name") with
  | some inputData, some itemName => some ⟨inputData, itemName⟩
  | _, _ => none

/-- The step at a position that is made of a map. -/
def stepOf (index : Nat) (entries : Entries) : Step where
  name := nameOf index entries
  type := typeOf entries
  parameters := parametersOf entries
  enabled := enabledOf entries
  output := (mapAt entries "Output").bind declaredOutput?
  loop := (mapAt entries "loop").bind declaredLoop?
  outputFilePath := filled? (field entries "output_file_path")

/-- The step at a position that is made of a document, if that is a map. -/
def stepOf? (index : Nat) : Value → Option Step
  | .map entries => some (stepOf index entries)
  | _ => none

/-! ## Problems -/

/-- The keys of parameters that are no texts. -/
def otherKeys (entries : Entries) : List Value :=
  (entries.map Prod.fst).filter fun key => key.text?.isNone

/-- The wording of a problem with the name of a step; a blank one counts as missing. -/
def nameWording (index : Nat) (v : Value) : String :=
  if isOptionalText v then s!"step {index} is missing a Name"
  else s!"Step {index} Name must be a string, got {v.kind}"

/-- The wording of the problem that a step has no type. -/
def missingTypeWording (name : String) : String :=
  s!"step {name} is missing a Type"

/-- The wording of a problem with the type of a step; a blank one counts as missing. -/
def typeWording (name : String) (v : Value) : String :=
  if isOptionalText v then missingTypeWording name
  else s!"step {name} Type must be a string, got {v.kind}"

/-- The wording of a problem with the parameters of a step. -/
def parametersWording (name : String) : Value → String
  | .map entries =>
    let shown := (Value.list (otherKeys entries)).written
    s!"step {name} Parameters keys must be strings, got {shown}"
  | _ => s!"step {name} Parameters must be an object"

/-- The wording of a problem with the loop of a step, of which a text is missing. -/
def loopWording (name text : String) : String :=
  s!"step {name} loop is missing {text}"

/-- The wording of the problem at a place of the step at a position. Steps are called by their names
from the type on. -/
def wording (index : Nat) (entries : Entries) : Place → String
  | .step => s!"Step {index} must be an object"
  | .name => nameWording index (field entries "Name")
  | .type => typeWording (nameOf index entries) (field entries "Type")
  | .parameters => parametersWording (nameOf index entries) (field entries "Parameters")
  | .enabled => s!"step {nameOf index entries} Enabled must be a boolean"
  | .output => s!"step {nameOf index entries} Output must be an object"
  | .outputName => s!"step {nameOf index entries} {Place.outputName.label} must be a string"
  | .outputFormat => s!"step {nameOf index entries} {Place.outputFormat.label} must be a string"
  | .loop => s!"step {nameOf index entries} loop must be an object"
  | .loopInput => loopWording (nameOf index entries) "input_data"
  | .loopItem => loopWording (nameOf index entries) "item_name"
  | .outputFilePath => s!"step {nameOf index entries} output_file_path must be a string"

/-- Whether the broken rule of a place is reported: the format of an output is not looked at once
the name is found wrong. -/
def reports (entries : Entries) (place : Place) : Bool :=
  breaksField entries place && !(place == .outputFormat && breaksField entries .outputName)

theorem reports_of_ne {place : Place} (h : place ≠ .outputFormat) (entries : Entries) :
    reports entries place = breaksField entries place := by
  simp [reports, h]

/-- The problems at places of a map that is the step at a position. -/
def problemsAt (index : Nat) (entries : Entries) (places : List Place) : List Problem :=
  (places.filter (reports entries)).map fun place =>
    ⟨wording index entries place, place.path index, 2⟩

theorem problemsAt_append (index : Nat) (entries : Entries) (first second : List Place) :
    problemsAt index entries (first ++ second) =
      problemsAt index entries first ++ problemsAt index entries second := by
  simp [problemsAt]

/-- The problems that are found in the document of the step at a position. -/
def problemsOf (index : Nat) : Value → List Problem
  | .map entries => problemsAt index entries Place.fields
  | _ => [⟨wording index [] .step, Place.step.path index, 2⟩]

/-- The problems that are found in the documents of the steps from a position on. -/
def problemsFrom (index : Nat) (documents : List Value) : List Problem :=
  (documents.zipIdx index).flatMap fun (v, i) => problemsOf i v

/-- The steps from a position on that are made of documents. -/
def stepsFrom (index : Nat) (documents : List Value) : List Step :=
  (documents.zipIdx index).filterMap fun (v, i) => stepOf? i v

theorem problemsFrom_cons (index : Nat) (v : Value) (documents : List Value) :
    problemsFrom index (v :: documents) = problemsOf index v ++ problemsFrom (index + 1) documents :=
  rfl

theorem stepsFrom_cons (index : Nat) (v : Value) (documents : List Value) :
    stepsFrom index (v :: documents) =
      (stepOf? index v).toList ++ stepsFrom (index + 1) documents := by
  cases h : stepOf? index v <;> simp [stepsFrom, h]

/-! ## Keys that are shown -/

/-- Whether all keys of a map can be shown. -/
def keysShown (entries : Entries) : Bool :=
  entries.all fun entry => !entry.1.holdsLongInteger

/-- Whether the keys of a map can be shown that are shown if the map makes an output. -/
def outputShown (entries : Entries) : Bool :=
  (declaredOutput? entries).isNone || keysShown entries

/-- Whether the keys of a map can be shown that are shown if the map makes a loop. -/
def loopShown (entries : Entries) : Bool :=
  (declaredLoop? entries).isNone || keysShown entries

/-- Whether the keys of a step's document can be shown that messages may show. -/
def stepShown : Value → Bool
  | .map entries =>
    (mapAt entries "Parameters").all keysShown && (mapAt entries "Output").all outputShown &&
      (mapAt entries "loop").all loopShown && keysShown entries
  | _ => true

/-- Texts can be shown. -/
theorem holdsLongInteger_of_text? {v : Value} {s : String} (h : v.text? = some s) :
    v.holdsLongInteger = false := by
  cases v with
  | text s => rfl
  | number literal => rfl
  | _ => cases h

theorem anyLongInteger_eq_any (items : List Value) :
    Value.anyLongInteger items = items.any Value.holdsLongInteger := by
  induction items with
  | nil => rfl
  | cons item items ih => rw [Value.anyLongInteger, List.any_cons, ih]

/-- The keys of a map can be shown if those can that are no texts. -/
theorem keysShown_eq (entries : Entries) :
    keysShown entries = !(Value.list (otherKeys entries)).holdsLongInteger := by
  rw [Value.holdsLongInteger, anyLongInteger_eq_any]
  induction entries with
  | nil => rfl
  | cons entry entries ih =>
    rw [keysShown, List.all_cons]
    rw [keysShown] at ih
    cases htext : entry.1.text? with
    | none => simp [otherKeys, htext, ih]
    | some s => simp [otherKeys, htext, ih, holdsLongInteger_of_text? htext]

/-- A field has a text for its key. -/
theorem holdsLongInteger_of_isField {name : String} {key : Value} (h : isField name key = true) :
    key.holdsLongInteger = false := by
  unfold isField at h
  split at h
  · rename_i htext
    exact holdsLongInteger_of_text? htext
  · cases h

/-! ## What the search comes to -/

/-- Unknown fields are warned of, which is no problem. -/
theorem unknownFields_gives (known : List String) (warning : String → String)
    (entries : Entries) : (unknownFields known warning entries).Gives (keysShown entries) [] () := by
  induction entries with
  | nil => exact Finding.gives_pure ()
  | cons entry entries ih =>
    obtain ⟨key, value⟩ := entry
    rw [unknownFields]
    cases hknown : known.any (isField · key) with
    | true =>
      -- The key of a known field is a text, and so it decides nothing.
      obtain ⟨name, -, hfield⟩ := List.any_eq_true.mp hknown
      have hshown : keysShown ((key, value) :: entries) = keysShown entries := by
        simp [keysShown, holdsLongInteger_of_isField hfield]
      rw [hshown]
      exact ih
    | false =>
      have hwarning : (Finding.warning (warning key.plain)).Gives true [] () :=
        ⟨fun _ => rfl, fun _ => rfl, nofun⟩
      rw [if_neg Bool.false_ne_true]
      exact (Finding.gives_plain key).bind (hwarning.bind ih)

/-- A problem at a place is found or not, as the rule of the place says. -/
theorem problemsAt_of_ne {place : Place} (h : place ≠ .outputFormat) (index : Nat)
    (entries : Entries) :
    problemsAt index entries [place] =
      if breaksField entries place then [⟨wording index entries place, place.path index, 2⟩]
      else [] := by
  cases hbreaks : breaksField entries place <;> simp [problemsAt, reports_of_ne h, hbreaks]

section Readers

variable (index : Nat) (entries : Entries)

theorem readName_gives :
    (readName index (field entries "Name")).Gives true (problemsAt index entries [.name])
      (nameOf index entries) := by
  rw [problemsAt_of_ne (show Place.name ≠ .outputFormat by decide), breaksField, wording, nameOf]
  generalize field entries "Name" = v
  cases v with
  | text s | number s =>
    simp only [readName, filled?, Value.text?, Option.filter_some]
    by_cases hblank : Text.isBlank s = true
    · simp only [hblank]
      exact Finding.problemAt_gives _ _ _ _
    · simp only [hblank]
      exact Finding.gives_pure s
  | _ => exact Finding.problemAt_gives _ _ _ _

theorem readType_gives (name : String) (hname : name = nameOf index entries) :
    (readType index name (field entries "Type")).Gives true (problemsAt index entries [.type])
      (typeOf entries) := by
  subst hname
  rw [problemsAt_of_ne (show Place.type ≠ .outputFormat by decide), breaksField, wording, typeOf]
  generalize field entries "Type" = v
  cases v with
  | text s | number s =>
    simp only [readType, filled?, Value.text?, Option.filter_some]
    by_cases hblank : Text.isBlank s = true
    · simp only [hblank]
      exact Finding.problemAt_gives _ _ _ _
    · simp only [hblank]
      exact Finding.gives_pure s
  | _ => exact Finding.problemAt_gives _ _ _ _

/-- A map whose keys are all texts can be shown. -/
theorem keysShown_of_texts {inner : Entries}
    (h : (inner.all fun entry => entry.1.text?.isSome) = true) : keysShown inner = true := by
  refine List.all_eq_true.mpr fun entry hentry => ?_
  obtain ⟨s, htext⟩ := Option.isSome_iff_exists.mp (List.all_eq_true.mp h entry hentry)
  rw [holdsLongInteger_of_text? htext]
  rfl

theorem otherKeys_isEmpty (inner : Entries) :
    (otherKeys inner).isEmpty = inner.all fun entry => entry.1.text?.isSome := by
  induction inner with
  | nil => rfl
  | cons entry inner ih =>
    cases htext : entry.1.text? <;> simp_all [otherKeys]

theorem readParameters_gives (name : String) (hname : name = nameOf index entries) :
    (readParameters index name (field entries "Parameters")).Gives
      ((mapAt entries "Parameters").all keysShown) (problemsAt index entries [.parameters])
      (parametersOf entries) := by
  subst hname
  rw [problemsAt_of_ne (show Place.parameters ≠ .outputFormat by decide), breaksField, wording,
    parametersOf, mapAt]
  generalize field entries "Parameters" = v
  cases v with
  | null => exact Finding.gives_pure []
  | map inner =>
    change (readParameters index _ (.map inner)).Gives (keysShown inner) _ inner
    simp only [readParameters, isOptionalParameters, ← otherKeys_isEmpty]
    rw [← otherKeys]
    cases hothers : (otherKeys inner).isEmpty with
    | true =>
      rw [otherKeys_isEmpty] at hothers
      rw [keysShown_of_texts hothers]
      exact Finding.gives_pure inner
    | false =>
      -- The message shows the keys that are no texts, and the others can always be shown.
      rw [keysShown_eq, ← Bool.and_true (!_)]
      exact (Finding.gives_written _).bind (Finding.problemAt_gives _ _ _ _)
  | _ => exact Finding.problemAt_gives _ _ _ _

theorem readEnabled_gives (name : String) (hname : name = nameOf index entries) :
    (readEnabled index name (field entries "Enabled")).Gives true
      (problemsAt index entries [.enabled]) (enabledOf entries) := by
  subst hname
  rw [problemsAt_of_ne (show Place.enabled ≠ .outputFormat by decide), breaksField, wording,
    enabledOf]
  generalize field entries "Enabled" = v
  cases v with
  | null => exact Finding.gives_pure false
  | bool b => exact Finding.gives_pure b
  | _ => exact Finding.problemAt_gives _ _ _ _

theorem optionalText?_eq (v : Value) :
    optionalText? v = if isOptionalText v then .ok v.text? else .error () := by
  cases v <;> rfl

/-- Nothing and texts are all that is optional. -/
theorem text?_eq_none_of_not_isOptionalText {v : Value} (h : isOptionalText v = false) :
    v.text? = none := by
  cases v with
  | null => cases h
  | text s => cases h
  | number literal => cases h
  | _ => rfl

/-- The places whose problems are reported, of those of an output. -/
theorem filter_reports_output :
    [Place.output, .outputName, .outputFormat].filter (reports entries) =
      match field entries "Output" with
      | .null => []
      | .map inner =>
        if isOptionalText (field inner "Name") then
          if isOptionalText (field inner "Format") then [] else [.outputFormat]
        else [.outputName]
      | _ => [.output] := by
  cases hfield : field entries "Output" with
  | map inner =>
    cases hname : isOptionalText (field inner "Name") <;>
      cases hformat : isOptionalText (field inner "Format") <;>
        simp [reports, breaksField, mapAt, hfield, hname, hformat, isOptionalMap]
  | _ => simp [reports, breaksField, mapAt, hfield, isOptionalMap]

theorem readOutput_gives (name : String) (hname : name = nameOf index entries) :
    (readOutput index name (field entries "Output")).Gives
      ((mapAt entries "Output").all outputShown)
      (problemsAt index entries [.output, .outputName, .outputFormat])
      ((mapAt entries "Output").bind declaredOutput?) := by
  subst hname
  rw [problemsAt, filter_reports_output, mapAt]
  generalize field entries "Output" = v
  cases v with
  | null => exact Finding.gives_pure none
  | map inner =>
    change (readOutput index _ (.map inner)).Gives (outputShown inner) _ (declaredOutput? inner)
    simp only [readOutput, optionalText?_eq, outputShown, declaredOutput?]
    cases isOptionalText (field inner "Name") with
    | false => exact Finding.problemAt_gives _ _ _ _
    | true =>
      cases isOptionalText (field inner "Format") with
      | false => exact Finding.problemAt_gives _ _ _ _
      | true =>
        exact (unknownFields_gives _ _ inner).bind_pure fun _ => _
  | _ => exact Finding.problemAt_gives _ _ _ _

theorem readLoopText_gives (name place : String) (v : Value) :
    (readLoopText index name place v).Gives true
      (if (filled? v).isNone then
        [⟨loopWording name place, Workflow.fieldPath index s!"loop.{place}", 2⟩]
      else [])
      (filled? v) := by
  rw [readLoopText, ← filled?]
  cases filled? v with
  | none => exact Finding.problemAt_gives _ _ _ _
  | some s => exact Finding.gives_pure (some s)

/-- The places whose problems are reported, of those of a loop. -/
theorem problemsAt_loop :
    problemsAt index entries [.loop, .loopInput, .loopItem] =
      match field entries "loop" with
      | .null => []
      | .map inner =>
        (if (filled? (field inner "input_data")).isNone then
          [⟨wording index entries .loopInput, Place.loopInput.path index, 2⟩]
        else []) ++
        (if (filled? (field inner "item_name")).isNone then
          [⟨wording index entries .loopItem, Place.loopItem.path index, 2⟩]
        else [])
      | _ => [⟨wording index entries .loop, Place.loop.path index, 2⟩] := by
  cases hfield : field entries "loop" with
  | map inner =>
    cases hinput : (filled? (field inner "input_data")).isNone <;>
      cases hitem : (filled? (field inner "item_name")).isNone <;>
        simp [problemsAt, reports, breaksField, mapAt, hfield, hinput, hitem, isOptionalMap]
  | _ => simp [problemsAt, reports, breaksField, mapAt, hfield, isOptionalMap]

theorem readLoop_gives (name : String) (hname : name = nameOf index entries) :
    (readLoop index name (field entries "loop")).Gives ((mapAt entries "loop").all loopShown)
      (problemsAt index entries [.loop, .loopInput, .loopItem])
      ((mapAt entries "loop").bind declaredLoop?) := by
  subst hname
  rw [problemsAt_loop, mapAt]
  generalize field entries "loop" = v
  cases v with
  | null => exact Finding.gives_pure none
  | map inner =>
    change (readLoop index _ (.map inner)).Gives (loopShown inner) _ (declaredLoop? inner)
    have hinput := readLoopText_gives index (nameOf index entries) "input_data"
      (field inner "input_data")
    have hitem := readLoopText_gives index (nameOf index entries) "item_name"
      (field inner "item_name")
    -- Both texts are looked at before the loop is made of them, and then nothing more is found.
    dsimp only
    rw [← List.append_nil (ite _ _ _ ++ ite _ _ _), List.append_assoc]
    refine hinput.bind (hitem.bind ?_)
    simp only [declaredLoop?]
    cases filled? (field inner "input_data") with
    | none => exact Finding.gives_pure none
    | some inputData =>
      cases filled? (field inner "item_name") with
      | none => exact Finding.gives_pure none
      | some itemName => exact (unknownFields_gives _ _ inner).bind_pure fun _ => _
  | _ => exact Finding.problemAt_gives _ _ _ _

theorem readOutputPath_gives (name : String) (hname : name = nameOf index entries) :
    (readOutputPath index name (field entries "output_file_path")).Gives true
      (problemsAt index entries [.outputFilePath])
      (filled? (field entries "output_file_path")) := by
  subst hname
  rw [problemsAt_of_ne (show Place.outputFilePath ≠ .outputFormat by decide), breaksField, wording,
    readOutputPath, optionalText?_eq]
  cases hv : isOptionalText (field entries "output_file_path") with
  | true => exact Finding.gives_pure _
  | false =>
    rw [filled?, text?_eq_none_of_not_isOptionalText hv]
    exact Finding.problemAt_gives _ _ _ _

end Readers

/-- A step is made of a map, whatever problems there are. -/
theorem readStep_gives (index : Nat) (v : Value) :
    (readStep index v).Gives (stepShown v) (problemsOf index v) (stepOf? index v) := by
  cases v with
  | map entries =>
    -- The readers take the places one after the other.
    have hproblems : problemsOf index (.map entries) =
        problemsAt index entries [.name] ++ (problemsAt index entries [.type] ++
          (problemsAt index entries [.parameters] ++ (problemsAt index entries [.enabled] ++
            (problemsAt index entries [.output, .outputName, .outputFormat] ++
              (problemsAt index entries [.loop, .loopInput, .loopItem] ++
                (problemsAt index entries [.outputFilePath] ++ [])))))) := by
      simp only [← problemsAt_append, List.append_nil]
      rfl
    have hshown : stepShown (.map entries) =
        (true && (true && ((mapAt entries "Parameters").all keysShown && (true &&
          ((mapAt entries "Output").all outputShown && ((mapAt entries "loop").all loopShown &&
            (true && keysShown entries))))))) := by
      simp only [stepShown, Bool.true_and, Bool.and_assoc]
    rw [hproblems, hshown]
    refine (readName_gives index entries).bind ?_
    refine (readType_gives index entries _ rfl).bind ?_
    refine (readParameters_gives index entries _ rfl).bind ?_
    refine (readEnabled_gives index entries _ rfl).bind ?_
    refine (readOutput_gives index entries _ rfl).bind ?_
    refine (readLoop_gives index entries _ rfl).bind ?_
    refine (readOutputPath_gives index entries _ rfl).bind ?_
    exact (unknownFields_gives _ _ entries).bind_pure fun _ => _
  | _ => exact ⟨fun _ => rfl, fun _ => rfl, nofun⟩

/-- The documents of steps are looked at one after the other. -/
theorem readSteps_gives (index : Nat) (documents : List Value) :
    (readSteps index documents).Gives (documents.all stepShown) (problemsFrom index documents)
      (stepsFrom index documents) := by
  induction documents generalizing index with
  | nil => exact Finding.gives_pure []
  | cons v documents ih =>
    rw [stepsFrom_cons, problemsFrom_cons]
    exact (readStep_gives index v).bind ((ih (index + 1)).bind_pure fun _ => _)

/-- The search in a document finds the problems of its steps, and it makes a step of each that is a
map. -/
theorem findSteps_gives (entries : Entries) (documents : List Value) :
    (findSteps entries documents).Gives (keysShown entries && documents.all stepShown)
      (problemsFrom 0 documents) (stepsFrom 0 documents) :=
  (unknownFields_gives _ _ entries).bind (readSteps_gives 0 documents)

end Runbook.Document
