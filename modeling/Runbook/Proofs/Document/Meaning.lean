import Mathlib.Data.List.Forall2
import Runbook.Proofs.Document.Reading
import Runbook.Proofs.Workflow.Validation

/-!
# What documents say

What a document has to say to make a workflow is set down field by field, as relations between
values and what they say. A document says a step just if it keeps all the rules of its places, and
then the step is the one that is made of it.

The module introduces:

* `Document.SaysStep`: what the fields of a step's document say;
* `Document.Defines`: the workflow that a document says.

The main results are `Document.forall₂_says_iff`, which compares what is said with what is found,
and `Document.problems_of_said`.
-/

namespace Runbook.Document

/-! ## What a document says -/

/-- A value says a text that is not blank. -/
def SaysText (v : Value) (s : String) : Prop :=
  v.text? = some s ∧ Text.isBlank s = false

/-- A value says a text, or nothing does. -/
inductive SaysOptional : Value → Option String → Prop
  | absent : SaysOptional .null none
  | text {v : Value} {s : String} (h : v.text? = some s) : SaysOptional v (some s)

/-- A value says the parameters of a step. -/
inductive SaysParameters : Value → Parameters → Prop
  | absent : SaysParameters .null []
  | given {entries : Entries} (hkeys : ∀ entry ∈ entries, ∃ key, entry.1.text? = some key) :
      SaysParameters (.map entries) entries

/-- A value says whether a step is enabled. -/
inductive SaysEnabled : Value → Bool → Prop
  | absent : SaysEnabled .null false
  | given (b : Bool) : SaysEnabled (.bool b) b

/-- A value says the output of a step; a missing name is empty, and a format that is missing or
empty is that of texts. -/
inductive SaysOutput : Value → Option Output → Prop
  | absent : SaysOutput .null none
  | declared {entries : Entries} {name format : Option String}
      (hname : SaysOptional (field entries "Name") name)
      (hformat : SaysOptional (field entries "Format") format) :
      SaysOutput (.map entries) (some ⟨name.getD "", (format.filter (!·.isEmpty)).getD "text"⟩)

/-- A value says the loop of a step. -/
inductive SaysLoop : Value → Option Loop → Prop
  | absent : SaysLoop .null none
  | declared {entries : Entries} {loop : Loop}
      (hinput : SaysText (field entries "input_data") loop.inputData)
      (hitem : SaysText (field entries "item_name") loop.itemName) :
      SaysLoop (.map entries) (some loop)

/-- A value says the file that a step's output is delivered to; a blank name is none. -/
inductive SaysOutputPath : Value → Option String → Prop
  | mk {v : Value} {path : Option String} (h : SaysOptional v path) :
      SaysOutputPath v (path.filter fun s => !Text.isBlank s)

/-- The fields of a map say a step. -/
structure SaysStep (entries : Entries) (step : Step) : Prop where
  /-- The name. -/
  name : SaysText (field entries "Name") step.name
  /-- The type. -/
  type : SaysText (field entries "Type") step.type
  /-- The parameters. -/
  parameters : SaysParameters (field entries "Parameters") step.parameters
  /-- Whether the step is enabled. -/
  enabled : SaysEnabled (field entries "Enabled") step.enabled
  /-- The output. -/
  output : SaysOutput (field entries "Output") step.output
  /-- The loop. -/
  loop : SaysLoop (field entries "loop") step.loop
  /-- The file for the output. -/
  outputFilePath : SaysOutputPath (field entries "output_file_path") step.outputFilePath

/-- A value says a step. -/
inductive Says : Value → Step → Prop
  | step {entries : Entries} {step : Step} (h : SaysStep entries step) : Says (.map entries) step

/-- A document says a workflow: it is a map with a list of steps, of which there are some and whose
names differ. -/
inductive Defines : Value → Workflow → Prop
  | workflow {entries : Entries} {documents : List Value} {steps : List Step}
      (hdocuments : field entries stepsField = .list documents) (hne : documents ≠ [])
      (hsteps : List.Forall₂ Says documents steps) (hnames : (steps.map Step.name).Nodup) :
      Defines (.map entries) { steps := steps }

/-! ## Rules kept and what is said -/

theorem saysText_iff {v : Value} {s : String} : SaysText v s ↔ filled? v = some s := by
  rw [SaysText, filled?, Option.filter_eq_some_iff]
  simp

theorem saysOptional_iff {v : Value} {text : Option String} :
    SaysOptional v text ↔ isOptionalText v = true ∧ v.text? = text := by
  constructor
  · rintro (_ | htext)
    · exact ⟨rfl, rfl⟩
    · refine ⟨?_, htext⟩
      cases hv : isOptionalText v with
      | true => rfl
      | false => cases (text?_eq_none_of_not_isOptionalText hv).symm.trans htext
  · rintro ⟨hv, rfl⟩
    cases v with
    | null => exact .absent
    | text s => exact .text rfl
    | number literal => exact .text rfl
    | _ => cases hv

theorem saysParameters_iff {entries : Entries} {parameters : Parameters} :
    SaysParameters (field entries "Parameters") parameters ↔
      breaksField entries .parameters = false ∧ parametersOf entries = parameters := by
  rw [breaksField, parametersOf, mapAt, Bool.not_eq_false']
  generalize field entries "Parameters" = v
  constructor
  · rintro (_ | hkeys)
    · exact ⟨rfl, rfl⟩
    · refine ⟨List.all_eq_true.mpr fun entry hentry => ?_, rfl⟩
      obtain ⟨key, hkey⟩ := hkeys entry hentry
      rw [hkey]
      rfl
  · rintro ⟨hv, rfl⟩
    cases v with
    | null => exact .absent
    | map inner =>
      refine .given fun entry hentry => ?_
      exact Option.isSome_iff_exists.mp (List.all_eq_true.mp hv entry hentry)
    | _ => cases hv

theorem saysEnabled_iff {entries : Entries} {enabled : Bool} :
    SaysEnabled (field entries "Enabled") enabled ↔
      breaksField entries .enabled = false ∧ enabledOf entries = enabled := by
  rw [breaksField, enabledOf, Bool.not_eq_false']
  generalize field entries "Enabled" = v
  constructor
  · rintro (_ | _)
    · exact ⟨rfl, rfl⟩
    · exact ⟨rfl, rfl⟩
  · rintro ⟨hv, rfl⟩
    cases v with
    | null => exact .absent
    | bool b => exact .given b
    | _ => cases hv

theorem saysOutput_iff {entries : Entries} {output : Option Output} :
    SaysOutput (field entries "Output") output ↔
      (breaksField entries .output = false ∧ breaksField entries .outputName = false ∧
        breaksField entries .outputFormat = false) ∧
        (mapAt entries "Output").bind declaredOutput? = output := by
  simp only [breaksField, mapAt]
  generalize field entries "Output" = v
  constructor
  · rintro (_ | ⟨hname, hformat⟩)
    · exact ⟨⟨rfl, rfl, rfl⟩, rfl⟩
    · obtain ⟨hname', rfl⟩ := saysOptional_iff.mp hname
      obtain ⟨hformat', rfl⟩ := saysOptional_iff.mp hformat
      simp [hname', hformat', isOptionalMap, declaredOutput?]
  · rintro ⟨⟨hv, hname, hformat⟩, rfl⟩
    cases v with
    | null => exact .absent
    | map inner =>
      simp only [Option.any_some, Bool.not_eq_false'] at hname hformat
      simp only [Option.bind_some, declaredOutput?, hname, hformat]
      exact .declared (saysOptional_iff.mpr ⟨hname, rfl⟩) (saysOptional_iff.mpr ⟨hformat, rfl⟩)
    | _ => cases hv

theorem saysLoop_iff {entries : Entries} {loop : Option Loop} :
    SaysLoop (field entries "loop") loop ↔
      (breaksField entries .loop = false ∧ breaksField entries .loopInput = false ∧
        breaksField entries .loopItem = false) ∧
        (mapAt entries "loop").bind declaredLoop? = loop := by
  simp only [breaksField, mapAt]
  generalize field entries "loop" = v
  constructor
  · rintro (_ | ⟨hinput, hitem⟩)
    · exact ⟨⟨rfl, rfl, rfl⟩, rfl⟩
    · rw [saysText_iff] at hinput hitem
      simp [hinput, hitem, isOptionalMap, declaredLoop?]
  · rintro ⟨⟨hv, hinput, hitem⟩, rfl⟩
    cases v with
    | null => exact .absent
    | map inner =>
      simp only [Option.any_some, Option.isNone_eq_false_iff, Option.isSome_iff_exists]
        at hinput hitem
      obtain ⟨inputData, hinput⟩ := hinput
      obtain ⟨itemName, hitem⟩ := hitem
      simp only [Option.bind_some, declaredLoop?, hinput, hitem]
      exact .declared (saysText_iff.mpr hinput) (saysText_iff.mpr hitem)
    | _ => cases hv

theorem saysOutputPath_iff {entries : Entries} {path : Option String} :
    SaysOutputPath (field entries "output_file_path") path ↔
      breaksField entries .outputFilePath = false ∧
        filled? (field entries "output_file_path") = path := by
  rw [breaksField, Bool.not_eq_false']
  constructor
  · rintro ⟨h⟩
    obtain ⟨hv, rfl⟩ := saysOptional_iff.mp h
    exact ⟨hv, rfl⟩
  · rintro ⟨hv, rfl⟩
    exact .mk (saysOptional_iff.mpr ⟨hv, rfl⟩)

/-- The fields of a map say a step just if they keep all rules, and it is the step that is made of
the map. -/
theorem saysStep_iff {entries : Entries} {step : Step} (index : Nat) :
    SaysStep entries step ↔
      (∀ place, breaksField entries place = false) ∧ stepOf index entries = step := by
  constructor
  · intro h
    have hname := saysText_iff.mp h.name
    have htype := saysText_iff.mp h.type
    obtain ⟨hparameters, hparameters'⟩ := saysParameters_iff.mp h.parameters
    obtain ⟨henabled, henabled'⟩ := saysEnabled_iff.mp h.enabled
    obtain ⟨⟨houtput, houtputName, houtputFormat⟩, houtput'⟩ := saysOutput_iff.mp h.output
    obtain ⟨⟨hloop, hloopInput, hloopItem⟩, hloop'⟩ := saysLoop_iff.mp h.loop
    obtain ⟨hpath, hpath'⟩ := saysOutputPath_iff.mp h.outputFilePath
    constructor
    · intro place
      cases place with
      | step => rfl
      | name => rw [breaksField, hname]; rfl
      | type => rw [breaksField, htype]; rfl
      | _ => assumption
    · rw [stepOf, nameOf, typeOf, hname, htype, hparameters', henabled', houtput', hloop', hpath']
      rfl
  · rintro ⟨hkept, rfl⟩
    obtain ⟨name, hname⟩ := Option.isSome_iff_exists.mp (Option.isNone_eq_false_iff.mp (hkept .name))
    obtain ⟨type, htype⟩ := Option.isSome_iff_exists.mp (Option.isNone_eq_false_iff.mp (hkept .type))
    refine ⟨?_, ?_, saysParameters_iff.mpr ⟨hkept _, rfl⟩, saysEnabled_iff.mpr ⟨hkept _, rfl⟩,
      saysOutput_iff.mpr ⟨⟨hkept _, hkept _, hkept _⟩, rfl⟩,
      saysLoop_iff.mpr ⟨⟨hkept _, hkept _, hkept _⟩, rfl⟩,
      saysOutputPath_iff.mpr ⟨hkept _, rfl⟩⟩
    · rw [saysText_iff, stepOf, nameOf, hname]
      rfl
    · rw [saysText_iff, stepOf, typeOf, htype]
      rfl

/-! ## Documents without problems -/

/-- No rule is broken where no problem is found. -/
theorem problemsOf_eq_nil_iff {index : Nat} {v : Value} :
    problemsOf index v = [] ↔ ∀ place, breaks v place = false := by
  cases v with
  | map entries =>
    rw [problemsOf, problemsAt, List.map_eq_nil_iff, List.filter_eq_nil_iff]
    constructor
    · intro h place
      have hunreported (place : Place) (hne : place ≠ .step) : reports entries place = false := by
        simpa using h place (Place.mem_fields_iff.mpr hne)
      change breaksField entries place = false
      by_cases hstep : place = .step
      · rw [hstep]
        rfl
      by_cases hformat : place = .outputFormat
      -- The format of an output goes unreported only where its name is reported.
      · have hname := hunreported .outputName (by decide)
        rw [reports_of_ne (by decide)] at hname
        have h := hunreported place hstep
        rwa [reports, hname, Bool.and_false, Bool.not_false, Bool.and_true] at h
      · rw [← reports_of_ne hformat]
        exact hunreported place hstep
    · intro h place _
      simp [reports, show breaksField entries place = false from h place]
  | _ => exact iff_of_false (by simp [problemsOf]) fun h => by cases h .step

/-- A value says a step just if no problem is found in it, and it is the step that is made of the
value. -/
theorem says_iff {v : Value} {step : Step} (index : Nat) :
    Says v step ↔ problemsOf index v = [] ∧ stepOf? index v = some step := by
  rw [problemsOf_eq_nil_iff]
  constructor
  · rintro ⟨h⟩
    obtain ⟨hkept, rfl⟩ := (saysStep_iff index).mp h
    exact ⟨hkept, rfl⟩
  · rintro ⟨hkept, hstep⟩
    cases v with
    | map entries => exact .step ((saysStep_iff index).mpr ⟨hkept, Option.some.inj hstep⟩)
    | _ => cases hstep

/-- The steps that documents say, where no problem is found. -/
theorem forall₂_says_iff (index : Nat) {documents : List Value} {steps : List Step} :
    List.Forall₂ Says documents steps ↔
      problemsFrom index documents = [] ∧ stepsFrom index documents = steps := by
  induction documents generalizing index steps with
  | nil => simp [problemsFrom, stepsFrom, eq_comm]
  | cons v documents ih =>
    rw [problemsFrom_cons, stepsFrom_cons, List.append_eq_nil_iff, List.forall₂_cons_left_iff]
    constructor
    · rintro ⟨step, steps, hstep, hsteps, rfl⟩
      obtain ⟨hnone, hstep⟩ := (says_iff index).mp hstep
      obtain ⟨hrest, rfl⟩ := (ih (index + 1)).mp hsteps
      exact ⟨⟨hnone, hrest⟩, by rw [hstep]; rfl⟩
    · rintro ⟨⟨hnone, hrest⟩, rfl⟩
      cases v with
      | map entries =>
        exact ⟨stepOf index entries, _, (says_iff index).mpr ⟨hnone, rfl⟩,
          (ih (index + 1)).mpr ⟨hrest, rfl⟩, rfl⟩
      | _ => cases hnone

/-- A step that is said is sound by itself. -/
theorem Says.isSound {v : Value} {step : Step} (h : Says v step) : Workflow.IsSound step := by
  obtain ⟨h⟩ := h
  refine ⟨h.name.2, h.type.2, fun loop hloop => ?_⟩
  have hsaid := h.loop
  rw [hloop] at hsaid
  generalize field _ "loop" = v at hsaid
  obtain _ | ⟨hinput, hitem⟩ := hsaid
  exact ⟨hinput.2, hitem.2⟩

theorem isSound_of_said {documents : List Value} {steps : List Step}
    (h : List.Forall₂ Says documents steps) : ∀ step ∈ steps, Workflow.IsSound step := by
  induction h with
  | nil => simp
  | cons hsaid _ ih => exact List.forall_mem_cons.mpr ⟨hsaid.isSound, ih⟩

/-- Steps that are said make a workflow without problems just if there are some and their names
differ. -/
theorem problems_of_said {documents : List Value} {steps : List Step} (path : Option Path)
    (h : List.Forall₂ Says documents steps) :
    (⟨steps, path⟩ : Workflow).problems = [] ↔
      documents ≠ [] ∧ (steps.map Step.name).Nodup := by
  have hne : steps ≠ [] ↔ documents ≠ [] := by
    rw [← List.length_pos_iff, ← List.length_pos_iff, h.length_eq]
  rw [← Workflow.validate_eq_ok_iff, Workflow.validate_iff, hne]
  exact ⟨fun hvalid => ⟨hvalid.1, hvalid.2.2⟩, fun hsaid => ⟨hsaid.1, isSound_of_said h, hsaid.2⟩⟩

/-- A document says one workflow at most. -/
theorem Defines.unique {document : Value} {w w' : Workflow} (h : Defines document w)
    (h' : Defines document w') : w = w' := by
  obtain ⟨hdocuments, -, hsaid, -⟩ := h
  obtain ⟨hdocuments', -, hsaid', -⟩ := h'
  obtain rfl := Value.list.inj (hdocuments.symm.trans hdocuments')
  rw [← ((forall₂_says_iff 0).mp hsaid).2, ← ((forall₂_says_iff 0).mp hsaid').2]

/-- A workflow that a document says has no problems. -/
theorem Defines.problems_eq_nil {document : Value} {w : Workflow} (h : Defines document w) :
    w.problems = [] := by
  obtain ⟨-, hne, hsaid, hnames⟩ := h
  exact (problems_of_said none hsaid).mpr ⟨hne, hnames⟩

end Runbook.Document
