import Mathlib.Data.List.Forall2
import Mathlib.Data.List.Nodup
import Runbook.Proofs.Document.File

/-!
# The spelling of documents

The entries of a map may come in any order, the names of its fields may be written in any letters,
and it may have fields that are not known. None of this matters for what a document says, as long as
no two keys of a map differ in the case of their letters only. It is another matter whether the keys
of unknown fields can be shown, since they are warned of.

The module introduces:

* `Document.Respelled`: the maps that differ in spelling, step by step;
* `Document.KeysDiffer`: no two keys are the same in any letters;
* `Document.SameStep` and `Document.SameDocument`: the documents that differ in the spelling of
  their maps, which are that of the document, those of the steps, and those of outputs and loops.

The main result is `Document.loadDocument_respelled`: what is loaded is the same just if the keys of
both documents can be shown or those of neither.
-/

namespace Runbook.Document

/-! ## Spellings of a map -/

/-- Two maps differ in spelling: one is made of the other by writing known fields in other letters,
by adding and removing fields that are not known, and by changing the order. The values of a known
field are the `same` for that field. -/
inductive Respelled (known : List String) (same : String → Value → Value → Prop) :
    Entries → Entries → Prop
  /-- There is nothing to be written. -/
  | nil : Respelled known same [] []
  /-- A known field is written in any letters. -/
  | field {name : String} {key key' v v' : Value} {entries entries' : Entries}
      (hname : name ∈ known) (hkey : isField name key = true) (hkey' : isField name key' = true)
      (hvalue : same name v v') (h : Respelled known same entries entries') :
      Respelled known same ((key, v) :: entries) ((key', v') :: entries')
  /-- A field is added that is not known. -/
  | added {key v : Value} {entries entries' : Entries} (hkey : known.any (isField · key) = false)
      (h : Respelled known same entries entries') :
      Respelled known same entries ((key, v) :: entries')
  /-- A field is removed that is not known. -/
  | removed {key v : Value} {entries entries' : Entries} (hkey : known.any (isField · key) = false)
      (h : Respelled known same entries entries') :
      Respelled known same ((key, v) :: entries) entries'
  /-- The order is changed. -/
  | permuted {entries entries' entries'' : Entries} (h : Respelled known same entries entries')
      (hperm : entries'.Perm entries'') : Respelled known same entries entries''

/-- No two keys of a map are the same text in any letters. -/
def KeysDiffer (entries : Entries) : Prop :=
  ((entries.filterMap fun entry => entry.1.text?).map Text.foldCase).Nodup

instance : DecidablePred KeysDiffer := fun _ => inferInstanceAs (Decidable (List.Nodup _))

/-- Two values are the same, or maps that differ in spelling. -/
inductive SameMap (known : List String) (same : String → Value → Value → Prop) :
    Value → Value → Prop
  | kept (v : Value) : SameMap known same v v
  | respelled {entries entries' : Entries} (hkeys : KeysDiffer entries)
      (hkeys' : KeysDiffer entries') (h : Respelled known same entries entries') :
      SameMap known same (.map entries) (.map entries')

/-- The values of a field of a step are the same, or they are outputs or loops that differ in
spelling. -/
inductive SameField : String → Value → Value → Prop
  | kept (name : String) (v : Value) : SameField name v v
  | output {v v' : Value} (h : SameMap outputFields (fun _ => Eq) v v') : SameField "output" v v'
  | loop {v v' : Value} (h : SameMap loopFields (fun _ => Eq) v v') : SameField "loop" v v'

/-- The documents of two steps differ in spelling only. -/
def SameStep : Value → Value → Prop := SameMap stepFields SameField

/-- The documents of the steps differ in spelling only, one by one. -/
inductive SameSteps : Value → Value → Prop
  | kept (v : Value) : SameSteps v v
  | listed {documents documents' : List Value} (h : List.Forall₂ SameStep documents documents') :
      SameSteps (.list documents) (.list documents')

/-- Two documents differ in spelling only. -/
def SameDocument : Value → Value → Prop := SameMap [stepsField] fun _ => SameSteps

/-! ## Fields -/

/-- The values under the keys that are a field's name in any letters. -/
def valuesOf (entries : Entries) (name : String) : List Value :=
  (entries.filter fun entry => isField name entry.1).map Prod.snd

theorem valuesOf_cons_of_isField {name : String} {key : Value} (h : isField name key = true)
    (v : Value) (entries : Entries) :
    valuesOf ((key, v) :: entries) name = v :: valuesOf entries name := by
  simp [valuesOf, h]

theorem valuesOf_cons_of_not_isField {name : String} {key : Value} (h : isField name key = false)
    (v : Value) (entries : Entries) :
    valuesOf ((key, v) :: entries) name = valuesOf entries name := by
  simp [valuesOf, h]

/-- A field is known by its name in any letters. -/
theorem isField_congr {name name' : String} (h : Text.foldCase name = Text.foldCase name') :
    isField name = isField name' := by
  funext key
  unfold isField
  rw [h]

theorem isField_of_text? {name : String} {key : Value} (h : key.text? = some name) :
    isField name key = true := by
  rw [isField, h]
  exact beq_self_eq_true _

/-- The text of a key that is a field's name is that name in other letters. -/
theorem foldCase_of_isField {name : String} {key : Value} (h : isField name key = true) :
    ∃ s, key.text? = some s ∧ Text.foldCase s = Text.foldCase name := by
  unfold isField at h
  split at h
  case h_1 s htext => exact ⟨s, htext, eq_of_beq h⟩
  case h_2 => cases h

/-- A key that is the name of two fields shows them to be the same. -/
theorem foldCase_eq_of_isField {name name' : String} {key : Value} (h : isField name key = true)
    (h' : isField name' key = true) : Text.foldCase name = Text.foldCase name' := by
  obtain ⟨s, htext, hfold⟩ := foldCase_of_isField h
  obtain ⟨s', htext', hfold'⟩ := foldCase_of_isField h'
  obtain rfl := Option.some.inj (htext.symm.trans htext')
  exact hfold.symm.trans hfold'

section Fields

variable {entries entries' : Entries} {name : String}

/-- A field holds one of the values under its name, or nothing where there are none. -/
theorem field_cases (entries : Entries) (name : String) :
    (valuesOf entries name = [] ∧ field entries name = .null) ∨
      field entries name ∈ valuesOf entries name := by
  have hvalue {entry : Value × Value} (hentry : entry ∈ entries)
      (hfield : isField name entry.1 = true) : entry.2 ∈ valuesOf entries name :=
    List.mem_map_of_mem (List.mem_filter.mpr ⟨hentry, hfield⟩)
  cases hget : Parameters.get? entries name with
  | some v =>
    -- The very name is the name in any letters.
    obtain ⟨entry, hfind, rfl⟩ := Option.map_eq_some_iff.mp hget
    have htext : entry.1.text? = some name := by simpa using List.find?_some hfind
    have hfield : field entries name = entry.2 := by simp only [field, hget]
    rw [hfield]
    exact .inr (hvalue (List.mem_of_find?_eq_some hfind) (isField_of_text? htext))
  | none =>
    have hfield : field entries name =
        ((entries.find? (isField name ·.1)).map Prod.snd).getD .null := by
      simp only [field, hget]
    rw [hfield]
    cases hfind : entries.find? (isField name ·.1) with
    | some entry =>
      have hkey : isField name entry.1 = true := by simpa using List.find?_some hfind
      exact .inr (hvalue (List.mem_of_find?_eq_some hfind) hkey)
    | none =>
      refine .inl ⟨?_, rfl⟩
      rw [valuesOf, List.map_eq_nil_iff, List.filter_eq_nil_iff]
      exact List.find?_eq_none.mp hfind

/-- Where keys differ, there is at most one value under a name. -/
theorem KeysDiffer.length_valuesOf (h : KeysDiffer entries) (name : String) :
    (valuesOf entries name).length ≤ 1 := by
  rw [KeysDiffer, List.Nodup, List.pairwise_map, List.pairwise_filterMap] at h
  have hkeys := List.Pairwise.filter (fun entry => isField name entry.1) h
  have hfield : ∀ entry ∈ entries.filter (fun entry => isField name entry.1),
      isField name entry.1 = true := fun entry hentry => (List.mem_filter.mp hentry).2
  rw [valuesOf, List.length_map]
  generalize entries.filter (fun entry => isField name entry.1) = found at hkeys hfield
  match found with
  | [] => exact Nat.zero_le 1
  | [_] => exact Nat.le_refl 1
  | entry :: entry' :: _ =>
    -- Two keys that are the same name in any letters do not differ.
    obtain ⟨s, htext, hfold⟩ := foldCase_of_isField (hfield entry (by simp))
    obtain ⟨s', htext', hfold'⟩ := foldCase_of_isField (hfield entry' (by simp))
    exact absurd (hfold.trans hfold'.symm)
      (List.rel_of_pairwise_cons hkeys List.mem_cons_self s htext s' htext')

/-- Where keys differ, a field holds the one value under its name, or nothing. -/
theorem KeysDiffer.field_eq (h : KeysDiffer entries) (name : String) :
    (valuesOf entries name = [] ∧ field entries name = .null) ∨
      valuesOf entries name = [field entries name] := by
  have hlength := h.length_valuesOf name
  rcases field_cases entries name with hnone | hmem
  · exact .inl hnone
  · right
    obtain ⟨v, hv⟩ : ∃ v, valuesOf entries name = [v] :=
      List.length_eq_one_iff.mp (Nat.le_antisymm hlength (List.length_pos_of_mem hmem))
    rw [hv, List.mem_singleton] at hmem
    rw [hv, hmem]

/-- The values of a known field are the same in both spellings, in another order perhaps. -/
theorem forall₂_valuesOf {known : List String} {same : String → Value → Value → Prop}
    (h : Respelled known same entries entries') (hknown : (known.map Text.foldCase).Nodup)
    (hname : name ∈ known) :
    ∃ values, List.Forall₂ (same name) (valuesOf entries name) values ∧
      values.Perm (valuesOf entries' name) := by
  induction h with
  | nil => exact ⟨[], .nil, .nil⟩
  | @field name' key key' v v' _ _ hname' hkey hkey' hvalue _ ih =>
    obtain ⟨values, hsame, hperm⟩ := ih
    by_cases heq : name = name'
    · subst heq
      rw [valuesOf_cons_of_isField hkey, valuesOf_cons_of_isField hkey']
      exact ⟨v' :: values, .cons hvalue hsame, hperm.cons v'⟩
    · -- The key is the name of one known field only.
      have hother {k : Value} (hk : isField name' k = true) : isField name k = false :=
        Bool.eq_false_iff.mpr fun hfield =>
          heq (List.inj_on_of_nodup_map hknown hname hname' (foldCase_eq_of_isField hfield hk))
      rw [valuesOf_cons_of_not_isField (hother hkey), valuesOf_cons_of_not_isField (hother hkey')]
      exact ⟨values, hsame, hperm⟩
  | added hkey _ ih =>
    rwa [valuesOf_cons_of_not_isField (Bool.eq_false_iff.mpr (List.any_eq_false.mp hkey _ hname))]
  | removed hkey _ ih =>
    rwa [valuesOf_cons_of_not_isField (Bool.eq_false_iff.mpr (List.any_eq_false.mp hkey _ hname))]
  | permuted _ hperm ih =>
    obtain ⟨values, hsame, hvalues⟩ := ih
    exact ⟨values, hsame, hvalues.trans ((hperm.filter _).map _)⟩

/-- A known field has the same value in both spellings, however its name is written. -/
theorem same_field {known : List String} {same : String → Value → Value → Prop}
    {written : String} (h : Respelled known same entries entries') (hkeys : KeysDiffer entries)
    (hkeys' : KeysDiffer entries') (hknown : (known.map Text.foldCase).Nodup)
    (hnull : same name .null .null) (hname : name ∈ known)
    (hwritten : Text.foldCase written = Text.foldCase name) :
    same name (field entries written) (field entries' written) := by
  have hvalues : ∀ entries, valuesOf entries name = valuesOf entries written := by
    intro entries
    rw [valuesOf, valuesOf, isField_congr hwritten]
  obtain ⟨values, hsame, hperm⟩ := forall₂_valuesOf h hknown hname
  rw [hvalues] at hsame hperm
  rcases hkeys'.field_eq written with ⟨hnone', hfield'⟩ | hone'
  · rw [hnone', List.perm_nil] at hperm
    rw [hperm, List.forall₂_nil_right_iff] at hsame
    rcases hkeys.field_eq written with ⟨-, hfield⟩ | hone
    · rwa [hfield, hfield']
    · cases hone.symm.trans hsame
  · rw [hone', List.perm_singleton] at hperm
    rw [hperm] at hsame
    rcases hkeys.field_eq written with ⟨hnone, -⟩ | hone
    · rw [hnone] at hsame
      cases hsame
    · rw [hone] at hsame
      cases hsame with
      | cons hfield _ => exact hfield

end Fields

/-! ## Steps -/

/-- The fields of two maps are the same, but for the spelling of an output and of a loop. -/
structure SameFields (entries entries' : Entries) : Prop where
  /-- The name. -/
  name : field entries "Name" = field entries' "Name"
  /-- The type. -/
  type : field entries "Type" = field entries' "Type"
  /-- The parameters. -/
  parameters : field entries "Parameters" = field entries' "Parameters"
  /-- Whether the step is enabled. -/
  enabled : field entries "Enabled" = field entries' "Enabled"
  /-- The output. -/
  output : SameMap outputFields (fun _ => Eq) (field entries "Output") (field entries' "Output")
  /-- The loop. -/
  loop : SameMap loopFields (fun _ => Eq) (field entries "loop") (field entries' "loop")
  /-- The file that the output is delivered to. -/
  outputFilePath : field entries "output_file_path" = field entries' "output_file_path"

section Steps

variable {entries entries' : Entries} {known : List String} {name : String}

/-- No field is spelled in several ways but outputs and loops. -/
theorem SameField.eq {v v' : Value} (h : SameField name v v') (houtput : name ≠ "output")
    (hloop : name ≠ "loop") : v = v' := by
  cases h with
  | kept => rfl
  | output => exact absurd rfl houtput
  | loop => exact absurd rfl hloop

theorem SameField.sameOutput {v v' : Value} (h : SameField name v v') (hname : name = "output") :
    SameMap outputFields (fun _ => Eq) v v' := by
  cases h with
  | kept => exact .kept v
  | output h => exact h
  | loop => exact absurd hname (by decide)

theorem SameField.sameLoop {v v' : Value} (h : SameField name v v') (hname : name = "loop") :
    SameMap loopFields (fun _ => Eq) v v' := by
  cases h with
  | kept => exact .kept v
  | output => exact absurd hname (by decide)
  | loop h => exact h

/-- Steps that differ in spelling have the same fields. -/
theorem sameFields_of_respelled (h : Respelled stepFields SameField entries entries')
    (hkeys : KeysDiffer entries) (hkeys' : KeysDiffer entries') : SameFields entries entries' := by
  have hfield (name written : String) (hname : name ∈ stepFields)
      (hwritten : Text.foldCase written = Text.foldCase name) :
      SameField name (field entries written) (field entries' written) :=
    same_field h hkeys hkeys' (by decide) (.kept name .null) hname hwritten
  exact {
    name := (hfield "name" "Name" (by decide) (by decide)).eq (by decide) (by decide)
    type := (hfield "type" "Type" (by decide) (by decide)).eq (by decide) (by decide)
    parameters :=
      (hfield "parameters" "Parameters" (by decide) (by decide)).eq (by decide) (by decide)
    enabled := (hfield "enabled" "Enabled" (by decide) (by decide)).eq (by decide) (by decide)
    output := (hfield "output" "Output" (by decide) (by decide)).sameOutput rfl
    loop := (hfield "loop" "loop" (by decide) rfl).sameLoop rfl
    outputFilePath :=
      (hfield "output_file_path" "output_file_path" (by decide) rfl).eq (by decide) (by decide) }

/-- Maps in a field that differ in spelling have the same values in their fields. -/
theorem rel_mapAt (h : SameMap known (fun _ => Eq) (field entries name) (field entries' name))
    (hknown : (known.map Text.foldCase).Nodup) :
    Option.Rel (fun inner inner' => ∀ written, Text.foldCase written ∈ known.map Text.foldCase →
      field inner written = field inner' written) (mapAt entries name) (mapAt entries' name) := by
  unfold mapAt
  generalize field entries name = v at h
  generalize field entries' name = v' at h
  cases h with
  | kept =>
    cases v with
    | map inner => exact .some fun _ _ => rfl
    | _ => exact .none
  | respelled hkeys hkeys' h =>
    refine .some fun written hwritten => ?_
    obtain ⟨name, hname, hfold⟩ := List.mem_map.mp hwritten
    exact same_field h hkeys hkeys' hknown rfl hname hfold.symm

/-- Whether a field holds a map does not depend on the spelling. -/
theorem isOptionalMap_congr {v v' : Value} (h : SameMap known (fun _ => Eq) v v') :
    isOptionalMap v = isOptionalMap v' := by
  cases h <;> rfl

/-- What is computed of a map in a field is the same of one that is related to it. -/
theorem elim_eq_of_rel {α : Type} {r : Entries → Entries → Prop} {inner inner' : Option Entries}
    (h : Option.Rel r inner inner') {f : Entries → α}
    (hf : ∀ entries entries', r entries entries' → f entries = f entries') (a : α) :
    inner.elim a f = inner'.elim a f := by
  cases h with
  | none => rfl
  | some hr => exact hf _ _ hr

theorem SameFields.breaksField_eq (h : SameFields entries entries') (place : Place) :
    breaksField entries place = breaksField entries' place := by
  have hany (inner : Option Entries) (p : Entries → Bool) : inner.any p = inner.elim false p := by
    cases inner <;> rfl
  cases place with
  | step => rfl
  | name => rw [breaksField, breaksField, h.name]
  | type => rw [breaksField, breaksField, h.type]
  | parameters => rw [breaksField, breaksField, h.parameters]
  | enabled => rw [breaksField, breaksField, h.enabled]
  | output => rw [breaksField, breaksField, isOptionalMap_congr h.output]
  | outputName =>
    rw [breaksField, breaksField, hany, hany]
    refine elim_eq_of_rel (rel_mapAt h.output (by decide)) (fun inner inner' hinner => ?_) false
    rw [hinner "Name" (by decide)]
  | outputFormat =>
    rw [breaksField, breaksField, hany, hany]
    refine elim_eq_of_rel (rel_mapAt h.output (by decide)) (fun inner inner' hinner => ?_) false
    rw [hinner "Format" (by decide)]
  | loop => rw [breaksField, breaksField, isOptionalMap_congr h.loop]
  | loopInput =>
    rw [breaksField, breaksField, hany, hany]
    refine elim_eq_of_rel (rel_mapAt h.loop (by decide)) (fun inner inner' hinner => ?_) false
    rw [hinner "input_data" (by decide)]
  | loopItem =>
    rw [breaksField, breaksField, hany, hany]
    refine elim_eq_of_rel (rel_mapAt h.loop (by decide)) (fun inner inner' hinner => ?_) false
    rw [hinner "item_name" (by decide)]
  | outputFilePath => rw [breaksField, breaksField, h.outputFilePath]

theorem SameFields.nameOf_eq (h : SameFields entries entries') (index : Nat) :
    nameOf index entries = nameOf index entries' := by
  rw [nameOf, nameOf, h.name]

theorem SameFields.wording_eq (h : SameFields entries entries') (index : Nat) (place : Place) :
    wording index entries place = wording index entries' place := by
  cases place <;> simp only [wording, h.name, h.type, h.parameters, h.nameOf_eq]

/-- The problems at a step's places do not depend on the spelling. -/
theorem SameFields.problemsAt_eq (h : SameFields entries entries') (index : Nat)
    (places : List Place) : problemsAt index entries places = problemsAt index entries' places := by
  have hreports : reports entries = reports entries' := by
    funext place
    rw [reports, reports, h.breaksField_eq, h.breaksField_eq]
  rw [problemsAt, problemsAt, hreports]
  simp only [h.wording_eq]

/-- The step that is made of a map does not depend on the spelling. -/
theorem SameFields.stepOf_eq (h : SameFields entries entries') (index : Nat) :
    stepOf index entries = stepOf index entries' := by
  have hbind {α : Type} (inner : Option Entries) (f : Entries → Option α) :
      inner.bind f = inner.elim none f := by
    cases inner <;> rfl
  have houtput : (mapAt entries "Output").bind declaredOutput? =
      (mapAt entries' "Output").bind declaredOutput? := by
    rw [hbind, hbind]
    refine elim_eq_of_rel (rel_mapAt h.output (by decide)) (fun inner inner' hinner => ?_) none
    rw [declaredOutput?, declaredOutput?, hinner "Name" (by decide), hinner "Format" (by decide)]
  have hloop : (mapAt entries "loop").bind declaredLoop? =
      (mapAt entries' "loop").bind declaredLoop? := by
    rw [hbind, hbind]
    refine elim_eq_of_rel (rel_mapAt h.loop (by decide)) (fun inner inner' hinner => ?_) none
    rw [declaredLoop?, declaredLoop?, hinner "input_data" (by decide),
      hinner "item_name" (by decide)]
  have hparameters : parametersOf entries = parametersOf entries' := by
    rw [parametersOf, parametersOf, mapAt, mapAt, h.parameters]
  have htype : typeOf entries = typeOf entries' := by
    rw [typeOf, typeOf, h.type]
  have henabled : enabledOf entries = enabledOf entries' := by
    rw [enabledOf, enabledOf, h.enabled]
  rw [stepOf, stepOf, h.nameOf_eq, htype, hparameters, henabled, houtput, hloop, h.outputFilePath]

/-- What is found in the document of a step does not depend on the spelling. -/
theorem SameStep.found {v v' : Value} (h : SameStep v v') (index : Nat) :
    problemsOf index v = problemsOf index v' ∧ stepOf? index v = stepOf? index v' := by
  cases h with
  | kept => exact ⟨rfl, rfl⟩
  | respelled hkeys hkeys' h =>
    have hfields := sameFields_of_respelled h hkeys hkeys'
    exact ⟨hfields.problemsAt_eq index Place.fields, congrArg some (hfields.stepOf_eq index)⟩

/-- What is found in the documents of steps does not depend on the spelling. -/
theorem found_eq_of_forall₂ {documents documents' : List Value}
    (h : List.Forall₂ SameStep documents documents') (index : Nat) :
    problemsFrom index documents = problemsFrom index documents' ∧
      stepsFrom index documents = stepsFrom index documents' := by
  induction h generalizing index with
  | nil => exact ⟨rfl, rfl⟩
  | cons hstep _ ih =>
    obtain ⟨hproblems, hstep⟩ := hstep.found index
    obtain ⟨hlater, hsteps⟩ := ih (index + 1)
    rw [problemsFrom_cons, problemsFrom_cons, stepsFrom_cons, stepsFrom_cons, hproblems, hstep,
      hlater, hsteps]
    exact ⟨rfl, rfl⟩

end Steps

/-! ## Documents -/

section Documents

variable {document document' : Value}

/-- What is made of the documents of steps does not depend on the spelling, where all keys can be
shown. -/
theorem workflowOf_respelled {entries entries' : Entries} {documents documents' : List Value}
    (h : List.Forall₂ SameStep documents documents')
    (hshown : (keysShown entries && documents.all stepShown) = true)
    (hshown' : (keysShown entries' && documents'.all stepShown) = true) (path : Option Path) :
    (workflowOf path entries documents).outcome =
      (workflowOf path entries' documents').outcome := by
  obtain ⟨hproblems, hsteps⟩ := found_eq_of_forall₂ h 0
  rw [workflowOf_of_shown path hshown, workflowOf_of_shown path hshown', hproblems, hsteps]
  cases withFurther (problemsFrom 0 documents')
    (⟨stepsFrom 0 documents', path⟩ : Workflow).problems <;> rfl

/-- What is made of a document does not depend on the spelling, where all keys can be shown. -/
theorem define_respelled (h : SameDocument document document')
    (hshown : isShowable document = true) (hshown' : isShowable document' = true)
    (path : Option Path) : (define document path).outcome = (define document' path).outcome := by
  cases h with
  | kept => rfl
  | @respelled entries entries' hkeys hkeys' h =>
    have hsteps : SameSteps (field entries stepsField) (field entries' stepsField) :=
      same_field h hkeys hkeys' (by decide) (.kept _) List.mem_cons_self rfl
    rw [define, define]
    rw [isShowable] at hshown hshown'
    generalize field entries stepsField = steps at hsteps hshown ⊢
    generalize field entries' stepsField = steps' at hsteps hshown' ⊢
    cases hsteps with
    | kept =>
      cases steps with
      | list documents =>
        cases documents with
        | nil => rfl
        | cons v documents =>
          exact workflowOf_respelled (List.forall₂_same.mpr fun v _ => .kept v) hshown hshown' path
      | _ => rfl
    | listed h =>
      cases h with
      | nil => rfl
      | cons hstep h => exact workflowOf_respelled (.cons hstep h) hshown hshown' path

/-- Making a workflow of a document ends at an integer just if some key cannot be shown. -/
theorem define_integer_iff (path : Option Path) :
    (define document path).outcome = .error (.integer .tooLongToWrite) ↔
      isShowable document = false := by
  refine ⟨fun h => ?_, fun h => define_of_not_isShowable h path⟩
  rw [define_outcome] at h
  rw [← toWorkflow_integer_iff, toWorkflow_eq_define]
  cases houtcome : (define document none).outcome with
  | ok w => rw [houtcome] at h; cases h
  | error e =>
    rw [houtcome] at h
    exact ⟨_, congrArg Except.error (Except.error.inj h)⟩

/-- So it is with a document that was read from a text. -/
theorem textToWorkflow_integer_iff (path : Option Path) :
    (textToWorkflow document path).outcome = .error (.integer .tooLongToWrite) ↔
      isShowable document = false := by
  rcases textToWorkflow_outcome document path with
    ⟨hshown, w, -, houtcome⟩ | ⟨hshown, -, problems, -, houtcome⟩ | ⟨hhidden, houtcome⟩
  · rw [houtcome, hshown]
    refine iff_of_false (fun h => ?_) nofun
    cases hends : w.steps.findSome? Loading.endless? with
    | none => rw [hends] at h; cases h
    | some e =>
      rw [hends] at h
      obtain ⟨step, -, hstep⟩ := List.exists_of_findSome?_eq_some hends
      obtain ⟨v, -, rfl⟩ := Option.map_eq_some_iff.mp hstep
      dsimp only at h
      split at h <;> cases h
  · rw [houtcome, hshown]
    exact iff_of_false nofun nofun
  · exact iff_of_true houtcome hhidden

/-- Outcomes that end at an integer just where keys cannot be shown, and that are the same where
they can, are the same just if the keys of both or of neither can be shown. -/
theorem outcome_eq_iff {outcome outcome' : Except LoadError Workflow}
    (h : outcome = .error (.integer .tooLongToWrite) ↔ isShowable document = false)
    (h' : outcome' = .error (.integer .tooLongToWrite) ↔ isShowable document' = false)
    (hshown : isShowable document = true → isShowable document' = true → outcome = outcome') :
    outcome = outcome' ↔ isShowable document = isShowable document' := by
  constructor
  · intro heq
    rw [heq, h'] at h
    cases hdocument : isShowable document with
    | true => simpa [hdocument] using h
    | false => exact (h.mpr hdocument).symm
  · intro heq
    cases hdocument : isShowable document with
    | true => exact hshown hdocument (heq ▸ hdocument)
    | false => rw [h.mpr hdocument, h'.mpr (heq ▸ hdocument)]

end Documents

/-- The spelling of a document does not matter: whatever loaders were used for before, the same
workflow is loaded from both documents, or the same problems are reported in the same order. This is
so just if the keys of both documents can be shown or those of neither, for a key that is to be
shown in a warning and holds an integer of too many digits ends the loading. It is the same with
documents that were read from texts. -/
theorem loadDocument_respelled {document document' : Value} (h : SameDocument document document')
    (loader loader' : Loader) :
    ((loader.loadDocument document).2.outcome = (loader'.loadDocument document').2.outcome ↔
        isShowable document = isShowable document') ∧
      ∀ path, (textToWorkflow document path).outcome = (textToWorkflow document' path).outcome ↔
        isShowable document = isShowable document' := by
  constructor
  · rw [loadDocument_outcome, loadDocument_outcome, toWorkflow_eq_define, toWorkflow_eq_define]
    exact outcome_eq_iff (define_integer_iff none) (define_integer_iff none)
      fun hshown hshown' => define_respelled h hshown hshown' none
  · intro path
    refine outcome_eq_iff (textToWorkflow_integer_iff path) (textToWorkflow_integer_iff path)
      fun hshown hshown' => ?_
    -- What is found decides what comes of looking for placeholders.
    have hdefined := define_respelled h hshown hshown' path
    cases houtcome : (define document path).outcome with
    | ok w =>
      rw [textToWorkflow, textToWorkflow, withReachableReferences_of_ok houtcome,
        withReachableReferences_of_ok (hdefined.symm.trans houtcome)]
    | error e =>
      rw [textToWorkflow, textToWorkflow, withReachableReferences_of_error houtcome,
        withReachableReferences_of_error (hdefined.symm.trans houtcome)]

/-- A document of one step. -/
def plainDocument : Value :=
  .map [(.text "Steps", .list [.map [(.text "Name", .text "Only"), (.text "Type", .text "echo"),
    (.text "Output", .map [(.text "Name", .text "Out")])]])]

/-- The document in other letters and in another order, beside a key that is an integer. -/
def respelledDocument (n : Int) : Value :=
  .map [(.integer n, .bool true),
    (.text "steps", .list [.map [(.text "TYPE", .text "echo"), (.text "name", .text "Only"),
      (.text "OUTPUT", .map [(.text "note", .null), (.text "nAmE", .text "Out")])]])]

theorem sameDocument_respelled (n : Int) : SameDocument plainDocument (respelledDocument n) := by
  refine .respelled (by decide) (List.nodup_singleton _)
    (.added rfl (.field List.mem_cons_self rfl rfl ?_ .nil))
  refine .listed (.cons (.respelled (by decide) (by decide) (.permuted ?_ (.swap _ _ _))) .nil)
  have houtput : Respelled outputFields (fun _ => Eq) [(.text "Name", .text "Out")]
      [(.text "note", .null), (.text "nAmE", .text "Out")] :=
    .added rfl (.field (by decide : "name" ∈ outputFields) rfl rfl rfl .nil)
  refine .field (by decide : "name" ∈ stepFields) rfl rfl (.kept _ _) ?_
  refine .field (by decide : "type" ∈ stepFields) rfl rfl (.kept _ _) ?_
  exact .field (by decide : "output" ∈ stepFields) rfl rfl
    (.output (.respelled (by decide) (by decide) houtput)) .nil

theorem isShowable_respelledDocument (n : Int) :
    isShowable (respelledDocument n) = !Number.isTooLong n := by
  have hshown : isShowable (respelledDocument n) = (!Number.isTooLong n && true && true) := rfl
  rw [hshown, Bool.and_true, Bool.and_true]

/-- A key that can be shown does not matter, and one of too many digits does. -/
theorem loadDocument_respelled_numbered :
    SameDocument plainDocument (respelledDocument 7) ∧
      (({} : Loader).loadDocument plainDocument).2.outcome =
        ((⟨[⟨"old", "", 2⟩]⟩ : Loader).loadDocument (respelledDocument 7)).2.outcome ∧
      (({} : Loader).loadDocument plainDocument).2.outcome ≠
        (({} : Loader).loadDocument
          (respelledDocument (Nat.pow 10 Number.maxDigits : Nat))).2.outcome := by
  have hlong : Number.isTooLong (Nat.pow 10 Number.maxDigits : Nat) = true := by
    rw [Number.isTooLong, Int.natAbs_natCast]
    exact decide_eq_true (Nat.le_refl _)
  refine ⟨sameDocument_respelled 7, ?_, fun h => ?_⟩
  · exact (loadDocument_respelled (sameDocument_respelled 7) _ _).1.mpr (by decide +kernel)
  · have hsame := (loadDocument_respelled (sameDocument_respelled _) _ _).1.mp h
    rw [isShowable_respelledDocument, hlong] at hsame
    cases hsame

end Runbook.Document
