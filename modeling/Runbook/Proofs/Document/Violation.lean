import Runbook.Proofs.Document.Report

/-!
# Violated rules and their problems

Each rule that a step violates is to be reported once, in its place, and nothing else is to be
reported. The problems that are found in the documents of steps stand at the places whose rules are
broken. Those that the steps add stand where the position among the steps that were made, and the
wordings that were used before, put them; they are in place if nothing was left out or reworded on
the way.

The module introduces:

* `Document.Violates`: the rules of documents, with the one that names differ;
* `Document.IsRegular`: documents where nothing comes between.

The main result is `Document.loadDocument_reports`.
-/

namespace Runbook.Document

/-! ## Documents on which nothing comes between -/

/-- The name that the document of a step gives it. -/
def validName? : Value → Option String
  | .map entries => filled? (field entries "Name")
  | _ => none

/-- The rule of a place is violated by the step at a position: by its document itself, or since it
has the name of an earlier step. -/
def Violates (documents : List Value) (index : Nat) (place : Place) : Prop :=
  ∃ v, documents[index]? = some v ∧ (breaks v place = true ∨
    place = .name ∧ ∃ name, validName? v = some name ∧
      name ∈ (documents.take index).filterMap validName?)

/-- Documents of steps on which nothing comes between a violated rule and its problem. -/
structure IsRegular (documents : List Value) : Prop where
  /-- No step is left out, and so positions are those of the documents. -/
  maps : ∀ v ∈ documents, ∃ entries, v = .map entries
  /-- A type that cannot be used is missing, which is said but once. -/
  types : ∀ entries, .map entries ∈ documents → isOptionalText (field entries "Type") = true
  /-- The name of an output does not hide its format. -/
  outputs : ∀ entries, .map entries ∈ documents → breaksField entries .outputName = true →
    breaksField entries .outputFormat = false
  /-- No name is repeated twice. -/
  names : ∀ name, (documents.filterMap validName?).count name ≤ 2
  /-- What stands for a name is no other step's name. -/
  standIns : ∀ index v, documents[index]? = some v → validName? v = none →
    placeholderName index ∉ documents.filterMap validName?

section

variable {documents : List Value}

theorem getElem?_stepsFrom (hmaps : ∀ v ∈ documents, ∃ entries, v = .map entries)
    (index i : Nat) :
    (stepsFrom index documents)[i]? = documents[i]?.bind (stepOf? (index + i)) := by
  induction documents generalizing index i with
  | nil => rfl
  | cons v documents ih =>
    obtain ⟨⟨entries, rfl⟩, hrest⟩ := List.forall_mem_cons.mp hmaps
    rw [stepsFrom_cons]
    cases i with
    | zero => rfl
    | succ i =>
      have hposition : index + (i + 1) = index + 1 + i := by omega
      rw [hposition]
      exact ih hrest (index + 1) i

theorem take_stepsFrom (hmaps : ∀ v ∈ documents, ∃ entries, v = .map entries) (index i : Nat) :
    (stepsFrom index documents).take i = stepsFrom index (documents.take i) := by
  induction documents generalizing index i with
  | nil => cases i <;> rfl
  | cons v documents ih =>
    obtain ⟨⟨entries, rfl⟩, hrest⟩ := List.forall_mem_cons.mp hmaps
    cases i with
    | zero => rfl
    | succ i =>
      rw [stepsFrom_cons, List.take_succ_cons, stepsFrom_cons, ← ih hrest]
      rfl

theorem nameOf_eq_getD (index : Nat) (entries : Entries) :
    nameOf index entries = (validName? (.map entries)).getD (placeholderName index) :=
  rfl

/-- A name that stands for none is the name of as many steps as have it in their documents. -/
theorem timesNamed_stepsFrom (hmaps : ∀ v ∈ documents, ∃ entries, v = .map entries) (index : Nat)
    {name : String} (hname : ∀ i v, documents[i]? = some v → validName? v = none →
      placeholderName (index + i) ≠ name) :
    timesNamed (stepsFrom index documents) name = (documents.filterMap validName?).count name := by
  induction documents generalizing index with
  | nil => rfl
  | cons v documents ih =>
    obtain ⟨⟨entries, rfl⟩, hrest⟩ := List.forall_mem_cons.mp hmaps
    have hcount := ih hrest (index + 1) fun i v hv hnone => by
      rw [Nat.add_assoc, Nat.add_comm 1]
      exact hname (i + 1) v hv hnone
    have hstep : timesNamed (stepsFrom index (.map entries :: documents)) name =
        (if nameOf index entries == name then 1 else 0) +
          timesNamed (stepsFrom (index + 1) documents) name := by
      rw [timesNamed, stepsFrom_cons, List.map_append, List.count_append, ← List.count_singleton]
      rfl
    rw [hstep, hcount]
    cases hvalid : validName? (.map entries) with
    | none =>
      -- What stands for the name is counted among the steps but is not in the documents.
      have hother : placeholderName index ≠ name := hname 0 _ rfl hvalid
      rw [nameOf_eq_getD, hvalid, List.filterMap_cons_none hvalid, Option.getD_none,
        if_neg (by simpa using hother), Nat.zero_add]
    | some valid =>
      rw [nameOf_eq_getD, hvalid, List.filterMap_cons_some hvalid, Option.getD_some,
        List.count_cons, Nat.add_comm]

/-- What stands for a name tells the position. -/
theorem placeholderName_inj {index index' : Nat} :
    placeholderName index = placeholderName index' ↔ index = index' := by
  have htoList (index : Nat) : (placeholderName index).toList =
      "<step_".toList ++ index.repr.toList ++ ">".toList := by
    rw [placeholderName, String.toList_append, String.toList_append, Nat.toString_eq_repr]
    rfl
  rw [← String.toList_inj, htoList, htoList, List.append_left_inj, List.append_right_inj,
    String.toList_inj, repr_inj]

variable {index : Nat} {entries : Entries}

/-- Where all steps are made, they add problems at the positions of the documents. -/
theorem addedAt_of_maps (hmaps : ∀ v ∈ documents, ∃ entries, v = .map entries)
    (hv : documents[index]? = some (.map entries)) (place : Place) :
    addedAt documents index place = addedCount (toldNoType 0 documents)
      (stepsFrom 0 (documents.take index)) (stepOf index entries) place := by
  rw [addedAt, getElem?_stepsFrom hmaps, hv, take_stepsFrom hmaps, Nat.zero_add]
  rfl

/-- A type that cannot be used is said to be missing, and nothing more. -/
theorem IsRegular.addedAt_type (h : IsRegular documents)
    (hv : documents[index]? = some (.map entries)) : addedAt documents index .type = 0 := by
  rw [addedAt_of_maps h.maps hv, addedCount]
  refine if_neg fun hadded => ?_
  obtain ⟨hblank, huntold⟩ := Bool.and_eq_true_iff.mp hadded
  have hbreaks : breaksField entries .type = true := by
    rw [breaksField, Option.isNone_iff_eq_none, Option.eq_none_iff_forall_ne_some]
    intro type htype
    rw [stepOf, typeOf, htype] at hblank
    cases (isBlank_of_filled? htype).symm.trans hblank
  -- The document itself has told that the type is missing, and that wording is not used again.
  have htold : toldNoType 0 documents (nameOf index entries) = true := by
    refine List.any_eq_true.mpr ⟨(.map entries, index), List.mem_zipIdx_iff_getElem?.mpr hv, ?_⟩
    have htext := h.types entries (List.mem_of_getElem? hv)
    simp only [tellsNoType, hbreaks, htext, Bool.and_self, beq_self_eq_true]
  rw [stepOf, htold, Bool.true_or] at huntold
  cases huntold

/-- The names of earlier steps that are repeated. -/
theorem IsRegular.timesNamed_take (h : IsRegular documents) {name : String}
    (hname : ∀ i v, i < index → documents[i]? = some v → validName? v = none →
      placeholderName i ≠ name) :
    timesNamed (stepsFrom 0 (documents.take index)) name =
      ((documents.take index).filterMap validName?).count name := by
  refine timesNamed_stepsFrom (fun v hv => h.maps v (List.mem_of_mem_take hv)) 0 ?_
  intro i v hv hnone
  rw [Nat.zero_add]
  rw [List.getElem?_take] at hv
  split at hv
  case isTrue hlt => exact hname i v hlt hv hnone
  case isFalse => cases hv

/-- The repeated name of an earlier step is reported, and no other name is. -/
theorem IsRegular.addedAt_name (h : IsRegular documents)
    (hv : documents[index]? = some (.map entries)) :
    addedAt documents index .name = match validName? (.map entries) with
      | some name => if name ∈ (documents.take index).filterMap validName? then 1 else 0
      | none => 0 := by
  rw [addedAt_of_maps h.maps hv, addedCount]
  change (if timesNamed (stepsFrom 0 (documents.take index)) (nameOf index entries) = 1 then 1
    else 0) = _
  rw [nameOf_eq_getD]
  cases hvalid : validName? (.map entries) with
  | none =>
    -- What stands for the name is no earlier step's name, and nothing else that stands for one.
    have hnone : timesNamed (stepsFrom 0 (documents.take index)) (placeholderName index) = 0 := by
      rw [h.timesNamed_take fun i v hlt _ _ => mt placeholderName_inj.mp (by omega),
        List.count_eq_zero]
      intro hmem
      exact h.standIns index _ hv hvalid (((List.take_sublist _ _).filterMap _).mem hmem)
    rw [Option.getD_none, hnone]
    rfl
  | some name =>
    have hmem : name ∈ documents.filterMap validName? :=
      List.mem_filterMap.mpr ⟨_, List.mem_of_getElem? hv, hvalid⟩
    have hcount : timesNamed (stepsFrom 0 (documents.take index)) name =
        ((documents.take index).filterMap validName?).count name :=
      h.timesNamed_take fun i v _ hv hnone hsame => h.standIns i v hv hnone (hsame ▸ hmem)
    -- The step itself has the name, and so one earlier step has it at most.
    have honce : ((documents.take index).filterMap validName?).count name ≤ 1 := by
      have hall := ((List.take_sublist (index + 1) documents).filterMap validName?).count_le name
      rw [List.take_add_one, hv, Option.toList_some, List.filterMap_append, List.count_append,
        List.filterMap_cons_some hvalid, List.count_cons_self] at hall
      have htwice := h.names name
      omega
    rw [Option.getD_some, hcount]
    have hpos := List.count_pos_iff (a := name) (l := (documents.take index).filterMap validName?)
    by_cases hearlier : name ∈ (documents.take index).filterMap validName?
    · have := hpos.mpr hearlier
      simp only [hearlier, if_true]
      exact if_pos (by omega)
    · simp only [hearlier, if_false]
      exact if_neg (by rw [List.count_eq_zero.mpr hearlier]; omega)

/-- A broken rule is found, for the name of an output hides no format. -/
theorem IsRegular.foundAt_eq (h : IsRegular documents)
    (hv : documents[index]? = some (.map entries)) (place : Place) :
    foundAt documents index place = if breaksField entries place then 1 else 0 := by
  have hreports : reports entries place = breaksField entries place := by
    by_cases hformat : place = .outputFormat
    · subst hformat
      have hhidden := h.outputs entries (List.mem_of_getElem? hv)
      cases hname : breaksField entries .outputName with
      | true => rw [hhidden hname, reports, hhidden hname, Bool.false_and]
      | false => simp [reports, hname]
    · exact reports_of_ne hformat entries
  rw [foundAt, hv, ← hreports]
  rfl

/-- Only names are reported of steps together. -/
theorem IsRegular.addedAt_of_ne (h : IsRegular documents)
    (hv : documents[index]? = some (.map entries)) {place : Place} (hplace : place ≠ .name) :
    addedAt documents index place = 0 := by
  by_cases htype : place = .type
  · rw [htype]
    exact h.addedAt_type hv
  · rw [addedAt_of_maps h.maps hv]
    cases place with
    | name => cases hplace rfl
    | type => cases htype rfl
    | _ => rfl

theorem violates_iff (hv : documents[index]? = some (.map entries)) (place : Place) :
    Violates documents index place ↔ breaksField entries place = true ∨
      place = .name ∧ ∃ name, validName? (.map entries) = some name ∧
        name ∈ (documents.take index).filterMap validName? := by
  simp only [Violates, hv, Option.some.injEq, exists_eq_left', breaks]

/-- Where nothing comes between, a violated rule is reported once, and no other is. -/
theorem IsRegular.reported (h : IsRegular documents) (index : Nat) (place : Place) :
    (Violates documents index place →
        foundAt documents index place + addedAt documents index place = 1) ∧
      (¬Violates documents index place →
        foundAt documents index place + addedAt documents index place = 0) := by
  cases hv : documents[index]? with
  | none =>
    have hfound : foundAt documents index place = 0 := by rw [foundAt, hv]
    have hadded : addedAt documents index place = 0 := by
      rw [addedAt, getElem?_stepsFrom h.maps, hv]
      rfl
    rw [hfound, hadded]
    refine ⟨?_, fun _ => rfl⟩
    rintro ⟨v, hv', -⟩
    cases hv.symm.trans hv'
  | some v =>
    obtain ⟨entries, rfl⟩ := h.maps v (List.mem_of_getElem? hv)
    rw [violates_iff hv, h.foundAt_eq hv]
    by_cases hplace : place = .name
    · subst hplace
      rw [h.addedAt_name hv, breaksField, ← validName?]
      cases validName? (.map entries) with
      | none => simp
      | some name => simp
    · rw [h.addedAt_of_ne hv hplace]
      simp [hplace]

end

/-- What a loader reports of a document with a list of steps, whatever it was used for before,
unless a key cannot be shown: what is found in the documents of the steps, and what the steps add.
So a place is reported as often as its broken rule is found there and as steps add to it, and
nothing else is reported but that there are no steps. Where nothing comes between, each violated
rule is reported once, at its place, and no other. -/
theorem loadDocument_reports (loader : Loader) {entries : Entries} {documents : List Value}
    (hdocuments : field entries stepsField = .list documents) (hne : documents ≠ []) :
    (isShowable (.map entries) = false →
      ∃ fault, (loader.loadDocument (.map entries)).2.outcome = .error (.integer fault)) ∧
    (isShowable (.map entries) = true →
      ∃ problems, problems = problemsFrom 0 documents ++ addedProblems documents ∧
        (loader.loadDocument (.map entries)).1.problems = problems ∧
        (problems ≠ [] →
          (loader.loadDocument (.map entries)).2.outcome = .error (.invalid problems)) ∧
        (∀ p ∈ problems,
          (∃ index place, index < documents.length ∧ p.path = Place.path index place) ∨
            p.path = "" ∧ stepsFrom 0 documents = []) ∧
        (∀ index place, countAt index place problems =
          foundAt documents index place + addedAt documents index place) ∧
        (IsRegular documents → ∀ index place,
          (Violates documents index place → countAt index place problems = 1) ∧
            (¬Violates documents index place → countAt index place problems = 0))) := by
  refine ⟨toWorkflow_integer_iff.mpr, fun hshown => ?_⟩
  rw [isShowable_of_list hdocuments hne] at hshown
  refine ⟨_, rfl, ?_, ?_, fun p hp => path_of_reported hp, countAt_reported documents, ?_⟩
  · change (toWorkflow (.map entries) none).problems = _
    rw [toWorkflow_of_list hdocuments hne, withReferences_problems, workflowOf_problems none hshown]
  · intro hproblems
    rw [loadDocument_outcome, toWorkflow_of_list hdocuments hne, withReferences_outcome,
      workflowOf_outcome none hshown hproblems]
  · intro hregular index place
    rw [countAt_reported]
    exact hregular.reported index place

/-- A document with steps. -/
def documentOf (steps : List Value) : Entries :=
  [(.text "Steps", .list steps)]

theorem field_documentOf (steps : List Value) :
    field (documentOf steps) stepsField = .list steps :=
  rfl

/-- The document of a step with a name and a type. -/
def namedStep (name : String) : Value :=
  .map [(.text "Name", .text name), (.text "Type", .text "echo")]

/-- Two steps of one name, the second without a type. -/
def repeatedSteps : List Value :=
  [namedStep "Twice", .map [(.text "Name", .text "Twice")]]

/-- Two steps of one name after a value that is no step. -/
def shiftedSteps : List Value :=
  [.integer 5, namedStep "Twice", namedStep "Twice"]

theorem isRegular_repeatedSteps : IsRegular repeatedSteps where
  maps := by simp [repeatedSteps, namedStep]
  types := by
    simp only [repeatedSteps, namedStep, List.mem_cons, List.not_mem_nil, or_false]
    rintro entries (h | h)
    · cases h
      rfl
    · cases h
      rfl
  outputs := by
    simp only [repeatedSteps, namedStep, List.mem_cons, List.not_mem_nil, or_false]
    rintro entries (h | h) hname
    · cases h
      rfl
    · cases h
      rfl
  names := fun name => List.count_le_length
  standIns := by
    rintro (_ | _ | index) v hv hnone
    · cases hv
      cases hnone
    · cases hv
      cases hnone
    · cases hv

/-- Both problems of the second step are reported in place. After a value that is no step, the
repeated name is reported at the step before. -/
theorem loadDocument_reports_repeated :
    (∃ problems, (Loader.loadDocument {} (.map (documentOf repeatedSteps))).1.problems = problems ∧
      countAt 1 .name problems = 1 ∧ countAt 1 .type problems = 1 ∧
        countAt 0 .name problems = 0) ∧
      ∃ problems, (Loader.loadDocument {} (.map (documentOf shiftedSteps))).1.problems = problems ∧
        Violates shiftedSteps 2 .name ∧ countAt 2 .name problems = 0 ∧
          ¬Violates shiftedSteps 1 .name ∧ countAt 1 .name problems = 1 := by
  constructor
  · obtain ⟨problems, -, hproblems, -, -, -, hregular⟩ :=
      (loadDocument_reports {} (field_documentOf repeatedSteps) (List.cons_ne_nil _ _)).2
        (by decide +kernel)
    have hreported := hregular isRegular_repeatedSteps
    have hfirst : ¬Violates repeatedSteps 0 .name := by
      rintro ⟨v, hv, hbreaks | ⟨-, name, -, hearlier⟩⟩
      · cases hv
        cases hbreaks
      · cases hearlier
    refine ⟨problems, hproblems, (hreported 1 .name).1 ?_, (hreported 1 .type).1 ?_,
      (hreported 0 .name).2 hfirst⟩
    · exact ⟨_, rfl, .inr ⟨rfl, "Twice", rfl, by decide +kernel⟩⟩
    · exact ⟨_, rfl, .inl rfl⟩
  · obtain ⟨problems, -, hproblems, -, -, hcounts, -⟩ :=
      (loadDocument_reports {} (field_documentOf shiftedSteps) (List.cons_ne_nil _ _)).2
        (by decide +kernel)
    refine ⟨problems, hproblems, ?_, (hcounts 2 .name).trans (by decide +kernel), ?_,
      (hcounts 1 .name).trans (by decide +kernel)⟩
    · exact ⟨_, rfl, .inr ⟨rfl, "Twice", rfl, by decide +kernel⟩⟩
    · rintro ⟨v, hv, hbreaks | ⟨-, name, -, hearlier⟩⟩
      · cases hv
        cases hbreaks
      · cases hearlier

end Runbook.Document
