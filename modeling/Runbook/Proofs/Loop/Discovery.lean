import Mathlib.Data.List.Forall2
import Runbook.Loop.Discovery
import Runbook.Proofs.Json.Stream
import Runbook.Proofs.Text.Split

/-!
# The items of a loop are those of its input

The items that a loop discovers stand for the parts of its input, in order: the elements of an
array, the one text of a JSON string, or the pieces of a text without the white space around them.
Only blank parts have no item, so that an item always has something to show.

The module introduces:

* `Loop.IsItemOf`, `Loop.Listed`: the items that stand for the elements of an array;
* `Loop.FirstArray`, `Loop.HoldsItems`: the member of an object that holds the items;
* `Loop.IsSplit`: the items of a text that is no JSON, or a number or truth value;
* `Loop.Yields`, `Loop.LacksArray`: the items of an input, and the inputs that have nowhere to look.

The main result is `Loop.discover_yields`.
-/

namespace Runbook.Loop

/-! ## Elements of an array -/

/-- A string of white space only. -/
def isBlankString : Json → Bool
  | .string text => Text.isBlank text
  | _ => false

/-- The item that stands for an element: a string itself, and a text for any other value. -/
inductive IsItemOf : Json → String → Prop
  | string (text : String) : IsItemOf (.string text) text
  | value {j : Json} {item : String} :
    (∀ text, j ≠ .string text) → Json.parse .strict item = .ok j → IsItemOf j item

/-- Items that stand for the elements of an array one by one, without the blank strings. -/
def Listed (elements : List Json) (items : List String) : Prop :=
  List.Forall₂ IsItemOf (elements.filter (!isBlankString ·)) items

/-- A blank string has no item, and any other element has one that stands for it. -/
theorem itemOf?_spec {j : Json} (h : j.WellFormed) :
    (isBlankString j = true ∧ itemOf? j = none) ∨
      isBlankString j = false ∧ ∃ item, itemOf? j = some item ∧ IsItemOf j item := by
  have hvalue (hj : ∀ text, j ≠ .string text) : IsItemOf j (j.render none) :=
    .value hj (Json.parse_render h none)
  cases j with
  | string text =>
    rw [isBlankString, itemOf?]
    cases Text.isBlank text with
    | true => exact .inl ⟨rfl, rfl⟩
    | false => exact .inr ⟨rfl, text, rfl, .string text⟩
  | _ => exact .inr ⟨rfl, _, rfl, hvalue (by simp)⟩

theorem listed_itemsOfArray {elements : List Json} (h : ∀ j ∈ elements, j.WellFormed) :
    Listed elements (itemsOfArray elements) := by
  induction elements with
  | nil => exact .nil
  | cons j elements ih =>
    obtain ⟨hj, helements⟩ := List.forall_mem_cons.mp h
    rw [Listed, itemsOfArray, List.filter_cons, List.filterMap_cons]
    rcases itemOf?_spec hj with ⟨hblank, hnone⟩ | ⟨hblank, item, hsome, hitem⟩
    · rw [hblank, hnone]
      exact ih helements
    · rw [hblank, hsome]
      exact .cons hitem (ih helements)

/-- An item that stands for an element other than a blank string has something to show. -/
theorem IsItemOf.not_isBlank {j : Json} {item : String} (h : IsItemOf j item)
    (hj : isBlankString j = false) : Text.isBlank item = false := by
  cases h with
  | string text => exact hj
  | value _ hread => exact Json.not_isBlank_of_parse hread

theorem Listed.not_isBlank {elements : List Json} {items : List String}
    (h : Listed elements items) : ∀ item ∈ items, Text.isBlank item = false := by
  have hkept : ∀ j ∈ elements.filter (!isBlankString ·), isBlankString j = false := by
    intro j hj
    simpa using (List.mem_filter.mp hj).2
  rw [Listed] at h
  -- The induction is on the elements that are kept, of which none is blank.
  generalize elements.filter (!isBlankString ·) = kept at h hkept
  induction h with
  | nil => simp
  | cons hitem _ ih =>
    obtain ⟨hfirst, hrest⟩ := List.forall_mem_cons.mp hkept
    exact List.forall_mem_cons.mpr ⟨hitem.not_isBlank hfirst, ih hrest⟩

/-! ## The member that holds the items -/

/-- The array under the first of some fields that has one among the members of an object. -/
inductive FirstArray (members : List (String × Json)) : List String → List Json → Prop
  | here {field : String} {fields : List String} {elements : List Json} :
    Json.member? field members = some (.array elements) →
    FirstArray members (field :: fields) elements
  | later {field : String} {fields : List String} {elements : List Json} :
    (∀ other, Json.member? field members ≠ some (.array other)) →
    FirstArray members fields elements → FirstArray members (field :: fields) elements

/-- The array that holds the items of an object. -/
def HoldsItems (members : List (String × Json)) (elements : List Json) : Prop :=
  FirstArray members ["packages_absolute", "packages", "items", "files"] elements

section Members

variable {members : List (String × Json)}

/-- A search for arrays finds the first one. -/
theorem findSome?_eq_some_iff_firstArray {arrayAt? : String → Option (List Json)}
    (harray : ∀ field elements,
      arrayAt? field = some elements ↔ Json.member? field members = some (.array elements))
    {fields : List String} {elements : List Json} :
    fields.findSome? arrayAt? = some elements ↔ FirstArray members fields elements := by
  induction fields with
  | nil => exact ⟨nofun, nofun⟩
  | cons field fields ih =>
    rw [List.findSome?_cons]
    cases hfound : arrayAt? field with
    | some found =>
      have hmember := (harray field found).mp hfound
      constructor
      · rintro heq
        cases heq
        exact .here hmember
      · rintro (hhere | ⟨hnone, -⟩)
        · rw [hmember] at hhere
          cases hhere
          rfl
        · exact absurd hmember (hnone found)
    | none =>
      have hnone (other : List Json) : Json.member? field members ≠ some (.array other) := by
        intro hmember
        rw [(harray field other).mpr hmember] at hfound
        cases hfound
      constructor
      · intro h
        exact .later hnone (ih.mp h)
      · rintro (hhere | ⟨-, hlater⟩)
        · exact absurd hhere (hnone elements)
        · exact ih.mpr hlater

/-- The elements that are looked at are those of the first array in the order of the fields. -/
theorem collection?_eq_some_iff {elements : List Json} :
    collection? members = some elements ↔ HoldsItems members elements := by
  refine findSome?_eq_some_iff_firstArray fun field found => ?_
  constructor
  · intro h
    split at h
    · rename_i hmember
      cases h
      exact hmember
    · cases h
  · intro h
    rw [h]

/-- The elements of an array in a well-formed object are well-formed. -/
theorem FirstArray.wellFormed {fields : List String} {elements : List Json}
    (h : FirstArray members fields elements) (hmembers : Json.WellFormedMembers members) :
    ∀ j ∈ elements, j.WellFormed := by
  induction h with
  | here hmember =>
    have harray := Json.wellFormedMembers_iff.mp hmembers _ (mem_of_lookup hmember)
    exact Json.wellFormedItems_iff.mp harray
  | later _ _ ih => exact ih

end Members

/-! ## Texts that are cut -/

/-- The items of a text: what lies between its line ends, commas and semicolons, without the white
space around it, as far as anything is left. -/
def IsSplit (t : String) (items : List String) : Prop :=
  ∃ pieces trimmed, Text.Cuts (['\n', ',', ';'].contains ·) t.toList pieces ∧
    List.Forall₂ Text.IsTrimmed pieces trimmed ∧
    items = (trimmed.filter (· != [])).map String.ofList

/-- Cutting and trimming gives these items and no others. -/
theorem isSplit_iff {t : String} {items : List String} :
    IsSplit t items ↔ itemsOfText t = items := by
  have hseparator : (['\n', ',', ';'].contains · : Char → Bool) = isSeparator := by
    funext c
    simp only [isSeparator, List.contains_cons, List.contains_nil, Bool.or_false, Bool.or_assoc]
  have htrimmed {pieces trimmed : List (List Char)} :
      List.Forall₂ Text.IsTrimmed pieces trimmed ↔ pieces.map Text.trimmed = trimmed := by
    rw [← List.forall₂_eq_eq_eq, List.forall₂_map_left_iff]
    simp only [Text.trimmed_eq_iff]
  simp only [IsSplit, hseparator, htrimmed, ← Text.splitWhere_eq_iff]
  constructor
  · rintro ⟨pieces, trimmed, rfl, rfl, rfl⟩
    rfl
  · rintro rfl
    exact ⟨_, _, rfl, rfl, rfl⟩

theorem IsSplit.not_isBlank {t : String} {items : List String} (h : IsSplit t items) :
    ∀ item ∈ items, Text.isBlank item = false := by
  intro item hitem
  rw [← isSplit_iff.mp h, itemsOfText] at hitem
  obtain ⟨cs, hcs, rfl⟩ := List.mem_map.mp hitem
  obtain ⟨hmem, hsome⟩ := List.mem_filter.mp hcs
  obtain ⟨piece, -, rfl⟩ := List.mem_map.mp hmem
  exact (Text.isTrimmed_trimmed piece).not_isBlank (bne_iff_ne.mp hsome)

/-! ## Inputs -/

/-- The items of an input in which placeholders have been replaced, as it is read. -/
inductive Yields (t : String) : List String → Prop
  | array {elements : List Json} {items : List String} :
    Json.parse .strict t = .ok (.array elements) → Listed elements items → Yields t items
  | object {members : List (String × Json)} {elements : List Json} {items : List String} :
    Json.parse .strict t = .ok (.object members) → HoldsItems members elements →
    Listed elements items → Yields t items
  | string {text : String} :
    Json.parse .strict t = .ok (.string text) → Text.isBlank text = false → Yields t [text]
  | blank {text : String} :
    Json.parse .strict t = .ok (.string text) → Text.isBlank text = true → Yields t []
  | null : Json.parse .strict t = .ok .null → Yields t []
  | number {literal : String} {items : List String} :
    Json.parse .strict t = .ok (.number literal) → IsSplit t items → Yields t items
  | bool {value : Bool} {items : List String} :
    Json.parse .strict t = .ok (.bool value) → IsSplit t items → Yields t items
  | text {items : List String} :
    (∀ j, Json.parse .strict t ≠ .ok j) → IsSplit t items → Yields t items

/-- An input is an object without an array where items are looked for. -/
def LacksArray (t : String) : Prop :=
  ∃ members, Json.parse .strict t = .ok (.object members) ∧
    ∀ elements, ¬HoldsItems members elements

section Input

variable {t : String} {items : List String}

/-- No item of an input is blank. -/
theorem Yields.not_isBlank (h : Yields t items) : ∀ item ∈ items, Text.isBlank item = false := by
  cases h with
  | array _ hlisted => exact hlisted.not_isBlank
  | object _ _ hlisted => exact hlisted.not_isBlank
  | string _ hblank => simpa using hblank
  | blank | null => simp
  | number _ hsplit | bool _ hsplit | text _ hsplit => exact hsplit.not_isBlank

/-- The items that are discovered are items of the input. -/
theorem yields_of_itemsOfInput (h : itemsOfInput t = .ok items) : Yields t items := by
  unfold itemsOfInput at h
  split at h
  · rename_i elements hread
    cases h
    exact .array hread (listed_itemsOfArray
      (Json.wellFormedItems_iff.mp (Json.wellFormed_of_parse hread)))
  · rename_i members hread
    split at h
    · rename_i elements hfirst
      cases h
      have harray := collection?_eq_some_iff.mp hfirst
      exact .object hread harray
        (listed_itemsOfArray (harray.wellFormed (Json.wellFormed_of_parse hread).2))
    · cases h
  · rename_i text hread
    cases h
    cases hblank : Text.isBlank text with
    | true => exact .blank hread hblank
    | false => exact .string hread hblank
  · rename_i hread
    cases h
    exact .null hread
  -- What is left is no JSON, or a number or truth value.
  · rename_i harray hobject hstring hnull
    cases h
    have hsplit : IsSplit t (itemsOfText t) := isSplit_iff.mpr rfl
    cases hread : Json.parse .strict t with
    | error e => exact .text (fun j hj => by simp [hread] at hj) hsplit
    | ok j =>
      cases j with
      | null => exact absurd hread hnull
      | bool value => exact .bool hread hsplit
      | number literal => exact .number hread hsplit
      | string text => exact absurd hread (hstring text)
      | array elements => exact absurd hread (harray elements)
      | object members => exact absurd hread (hobject members)

/-- An input that has items is one in which as many are discovered. They need not be the same: there
are many texts for an element that is no string. -/
theorem Yields.itemsOfInput_ok (h : Yields t items) :
    ∃ found, itemsOfInput t = .ok found ∧ found.length = items.length := by
  have hlisted {elements : List Json} (hread : ∀ j ∈ elements, j.WellFormed)
      (hitems : Listed elements items) : (itemsOfArray elements).length = items.length :=
    (listed_itemsOfArray hread).length_eq.symm.trans hitems.length_eq
  unfold itemsOfInput
  cases h with
  | array hread hitems =>
    have hwell := Json.wellFormedItems_iff.mp (Json.wellFormed_of_parse hread)
    rw [hread]
    exact ⟨_, rfl, hlisted hwell hitems⟩
  | object hread harray hitems =>
    have hwell := harray.wellFormed (Json.wellFormed_of_parse hread).2
    rw [hread]
    simp only [collection?_eq_some_iff.mpr harray]
    exact ⟨_, rfl, hlisted hwell hitems⟩
  | string hread hblank | blank hread hblank =>
    rw [hread]
    simp only [hblank]
    exact ⟨_, rfl, rfl⟩
  | null hread =>
    rw [hread]
    exact ⟨_, rfl, rfl⟩
  | number hread hsplit | bool hread hsplit =>
    rw [hread]
    exact ⟨_, rfl, by rw [isSplit_iff.mp hsplit]⟩
  | text hread hsplit =>
    cases hparse : Json.parse .strict t with
    | ok j => exact absurd hparse (hread j)
    | error e => exact ⟨_, rfl, by rw [isSplit_iff.mp hsplit]⟩

/-- Only an object without an array where items are looked for is refused. -/
theorem itemsOfInput_eq_error_iff {e : Error} :
    itemsOfInput t = .error e ↔ e = .noArrayField ∧ LacksArray t := by
  constructor
  · intro h
    unfold itemsOfInput at h
    split at h
    case h_2 members hread =>
      split at h
      case h_1 => cases h
      case h_2 hnone =>
        cases h
        refine ⟨rfl, members, hread, fun elements harray => ?_⟩
        rw [collection?_eq_some_iff.mpr harray] at hnone
        cases hnone
    all_goals cases h
  · rintro ⟨rfl, members, hread, hnone⟩
    have hcollection : collection? members = none :=
      Option.eq_none_iff_forall_ne_some.mpr fun elements hsome =>
        hnone elements (collection?_eq_some_iff.mp hsome)
    rw [itemsOfInput, hread]
    simp only [hcollection]

/-- No items are discovered in an input just if it has none. -/
theorem itemsOfInput_eq_nil_iff : itemsOfInput t = .ok [] ↔ Yields t [] := by
  constructor
  · exact yields_of_itemsOfInput
  · intro h
    obtain ⟨found, hfound, hlength⟩ := h.itemsOfInput_ok
    rw [hfound, List.eq_nil_of_length_eq_zero hlength]

end Input

/-! ## Loops -/

section Discover

variable {l : Loop} {results : Results} {t : String}

/-- Without items in the input a loop fails. -/
theorem discover_of_inText (ht : Substitution.inText results l.inputData = .ok t) :
    l.discover results =
      (itemsOfInput t).bind fun items => if items = [] then .error .noItems else .ok items := by
  simp only [discover, ht]
  cases itemsOfInput t with
  | error e => rfl
  | ok items => cases items <;> rfl

theorem discover_eq_pointer_iff {e : Pointer.Error} :
    l.discover results = .error (.pointer e) ↔
      Substitution.inText results l.inputData = .error e := by
  cases hinput : Substitution.inText results l.inputData with
  | error fault => simp [discover, hinput]
  | ok t =>
    rw [discover_of_inText hinput]
    cases hitems : itemsOfInput t with
    | error fault =>
      obtain ⟨rfl, -⟩ := itemsOfInput_eq_error_iff.mp hitems
      simp [Except.bind]
    | ok items => cases items <;> simp [Except.bind]

/-- The placeholders in the input of a loop that has items can be followed. -/
theorem exists_inText_of_discover {items : List String} (h : l.discover results = .ok items) :
    ∃ t, Substitution.inText results l.inputData = .ok t := by
  cases hinput : Substitution.inText results l.inputData with
  | ok t => exact ⟨t, rfl⟩
  | error e => cases h.symm.trans (discover_eq_pointer_iff.mpr hinput)

section Input

variable (ht : Substitution.inText results l.inputData = .ok t)
include ht

theorem discover_eq_ok_iff {items : List String} :
    l.discover results = .ok items ↔ items ≠ [] ∧ itemsOfInput t = .ok items := by
  rw [discover_of_inText ht]
  cases itemsOfInput t with
  | error e => simp [Except.bind]
  | ok found => cases found <;> grind [Except.bind]

theorem discover_eq_noItems_iff : l.discover results = .error .noItems ↔ Yields t [] := by
  rw [discover_of_inText ht, ← itemsOfInput_eq_nil_iff]
  cases hitems : itemsOfInput t with
  | error e =>
    obtain ⟨rfl, -⟩ := itemsOfInput_eq_error_iff.mp hitems
    simp [Except.bind]
  | ok found => cases found <;> simp [Except.bind]

theorem discover_eq_noArrayField_iff :
    l.discover results = .error .noArrayField ↔ LacksArray t := by
  have herror : itemsOfInput t = .error .noArrayField ↔ LacksArray t := by
    simp [itemsOfInput_eq_error_iff]
  rw [discover_of_inText ht, ← herror]
  cases itemsOfInput t with
  | error e => simp [Except.bind]
  | ok found => cases found <;> simp [Except.bind]

/-- A loop has items just if its input has some. -/
theorem exists_discover_eq_ok_iff :
    (∃ items, l.discover results = .ok items) ↔ ∃ items, items ≠ [] ∧ Yields t items := by
  constructor
  · rintro ⟨items, hitems⟩
    obtain ⟨hsome, hfound⟩ := (discover_eq_ok_iff ht).mp hitems
    exact ⟨items, hsome, yields_of_itemsOfInput hfound⟩
  · rintro ⟨items, hsome, hyields⟩
    obtain ⟨found, hfound, hlength⟩ := hyields.itemsOfInput_ok
    refine ⟨found, (discover_eq_ok_iff ht).mpr ⟨?_, hfound⟩⟩
    rintro rfl
    exact hsome (List.eq_nil_of_length_eq_zero hlength.symm)

end Input

end Discover

/-- A loop has the items of its input, in order, none lost and none made up: those of the elements
of an array other than blank strings, the text of a string unless it is blank, none for the null
value, and the pieces of every other text that is no object. It fails just if a placeholder cannot
be followed, if the input has no items, or if it is an object without an array where items are
looked for. Otherwise it has an item, and every item has something other than white space. -/
theorem discover_yields (l : Loop) (results : Results) :
    (∀ t, Substitution.inText results l.inputData = .ok t →
      (∀ items, l.discover results = .ok items → Yields t items) ∧
      ((∃ items, l.discover results = .ok items) ↔ ∃ items, items ≠ [] ∧ Yields t items) ∧
      (l.discover results = .error .noItems ↔ Yields t []) ∧
      (l.discover results = .error .noArrayField ↔ LacksArray t)) ∧
    (∀ e, l.discover results = .error (.pointer e) ↔
      Substitution.inText results l.inputData = .error e) ∧
    ∀ items, l.discover results = .ok items →
      items ≠ [] ∧ ∀ item ∈ items, ∃ c ∈ item.toList, Text.isSpace c = false := by
  have hyields {t : String} (ht : Substitution.inText results l.inputData = .ok t)
      {items : List String} (h : l.discover results = .ok items) : Yields t items :=
    yields_of_itemsOfInput ((discover_eq_ok_iff ht).mp h).2
  refine ⟨fun t ht => ?_, fun e => discover_eq_pointer_iff, fun items h => ?_⟩
  · exact ⟨fun items => hyields ht, exists_discover_eq_ok_iff ht, discover_eq_noItems_iff ht,
      discover_eq_noArrayField_iff ht⟩
  · obtain ⟨t, ht⟩ := exists_inText_of_discover h
    refine ⟨discover_ne_nil h, fun item hitem => ?_⟩
    have hblank := (hyields ht h).not_isBlank item hitem
    simpa [Text.isBlank] using hblank

/-- A loop over the array that a step has captured. -/
def listLoop : Loop :=
  { inputData := "\x7bList.Result\x7d", itemName := "item" }

/-- What the step has captured. -/
def listResults : Results :=
  [("List", [("Result", ⟨"[\"a\",\" \",true]", "text"⟩)])]

/-- The array has items for two of its elements, and the null value has none. -/
theorem discover_yields_list :
    Substitution.inText listResults listLoop.inputData = .ok "[\"a\",\" \",true]" ∧
      Yields "[\"a\",\" \",true]" ["a", "true"] ∧
      (∃ items, listLoop.discover listResults = .ok items) ∧
      Yields "null" [] ∧
      discover { listLoop with inputData := "null" } listResults = .error .noItems := by
  have hinput : Substitution.inText listResults listLoop.inputData =
      .ok "[\"a\",\" \",true]" := by decide +kernel
  have hread : Json.parse .strict "[\"a\",\" \",true]" =
      .ok (.array [.string "a", .string " ", .bool true]) := by
    have htext : (Json.array [.string "a", .string " ", .bool true]).render none =
        "[\"a\",\" \",true]" := by decide +kernel
    rw [← htext]
    exact Json.parse_render (by simp [Json.WellFormed, Json.WellFormedItems]) none
  have htrue : IsItemOf (.bool true) "true" :=
    .value (by simp) (Json.parse_render (j := .bool true) trivial none)
  have hyields : Yields "[\"a\",\" \",true]" ["a", "true"] :=
    .array hread (.cons (.string "a") (.cons htrue .nil))
  have hnull : Substitution.inText listResults "null" = .ok "null" := by decide +kernel
  have hnone : Yields "null" [] := .null (Json.parse_render (j := .null) trivial none)
  exact ⟨hinput, hyields,
    ((discover_yields listLoop listResults).1 _ hinput).2.1.mpr ⟨_, by simp, hyields⟩, hnone,
    ((discover_yields { listLoop with inputData := "null" } listResults).1 _ hnull).2.2.1.mpr
      hnone⟩

/-- A field without an array is passed over, strings are taken as they are, and numbers keep their
digits. -/
example :
    itemsOfInput "\x7b\"items\": 3, \"files\": [\" a,b \", \" \", 1.50, [2]]\x7d" =
      .ok [" a,b ", "1.50", "[2]"] := by
  decide +kernel

end Runbook.Loop
