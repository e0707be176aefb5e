import Mathlib.Data.List.Nodup
import Runbook.Capture
import Runbook.Proofs.Json.RoundTrip
import Runbook.Proofs.Json.Soundness
import Runbook.Proofs.Number.Literal

/-!
# Outlines of structured values

An operation may return a structured value: a tree of lists and maps over null, truth values,
integers, finite numbers and texts. Its outline is the text of a JSON value, indented, and reading
the outline gives just that JSON value: the tree again, each number by its characters.

The module introduces:

* `Value.IsStructured`: the values that are such trees;
* `Value.asRead`: the JSON value that a structured value is read as;
* `Json.laidOut`: parts one below the other, as outlines and indented JSON both write them;
* `Value.OutlinedAs`: a value is outlined as a JSON value is written.

The main results are `Value.outline_eq_render`, `Value.wellFormed_asRead` and, for what is captured,
`Capture.toText_of_outline`.
-/

namespace Runbook

namespace Value

mutual

/-- A value built from null, truth values, integers that can be written, finite numbers, texts,
lists, and maps whose keys are different texts. -/
def IsStructured : Value → Prop
  | .null => True
  | .bool _ => True
  | .integer n => (Number.decimal n.natAbs).length ≤ Number.maxDigits
  | .real x => x.isFinite = true
  | .text _ => True
  | .number _ => True
  | .list items => AllStructured items
  | .map entries =>
    (∀ entry ∈ entries, entry.1.text?.isSome) ∧ (entries.map fun entry => entry.1.text?).Nodup ∧
      EntriesStructured entries
  | _ => False

/-- All items are such values. -/
def AllStructured : List Value → Prop
  | [] => True
  | item :: items => IsStructured item ∧ AllStructured items

/-- The values of all entries are such values. -/
def EntriesStructured : List (Value × Value) → Prop
  | [] => True
  | (_, value) :: entries => IsStructured value ∧ EntriesStructured entries

end

mutual

/-- The JSON value that a structured value is read as once it has been captured: every number is
the number of its JSON text, and all else is as it was. -/
def asRead : Value → Json
  | .null => .null
  | .bool b => .bool b
  | .integer n => .number (String.ofList (Number.decimalText n))
  | .real x => .number (x.text Number.structuredWords)
  | .text s => .string s
  -- A number that was read before serves as a text.
  | .number literal => .string literal
  | .list items => .array (asReadItems items)
  | .map entries => .object (asReadEntries entries)
  -- No other value is structured.
  | _ => .null

/-- The JSON values that items are read as. -/
def asReadItems : List Value → List Json
  | [] => []
  | item :: items => asRead item :: asReadItems items

/-- The members that entries are read as. -/
def asReadEntries : List (Value × Value) → List (String × Json)
  | [] => []
  | (key, value) :: entries => (key.text?.getD "", asRead value) :: asReadEntries entries

end

end Value

/-! ## One layout -/

namespace Json

/-- Parts one below the other, each on a line of its own behind the line end `line`; `mark` ends the
line before the first of them. -/
def laidOut (mark line : List Char) : List (List Char) → List Char
  | [] => []
  | part :: parts => mark ++ line ++ part ++ laidOut [','] line parts

/-- Parts one below the other are parts with a comma and a line end between neighbours. -/
theorem laidOut_eq_joinWith (mark line : List Char) {parts : List (List Char)}
    (h : parts ≠ []) : laidOut mark line parts = mark ++ line ++ Text.joinWith (',' :: line) parts := by
  induction parts generalizing mark with
  | nil => exact absurd rfl h
  | cons part parts ih =>
    cases parts with
    | nil => simp [laidOut, Text.joinWith]
    | cons next parts =>
      rw [laidOut, ih _ (List.cons_ne_nil next parts), joinWith_cons_cons]
      simp

/-- Brackets are put around lines as around parts. -/
theorem bracketed_laidOut (width depth : Nat) (opening closing : Char)
    (parts : List (List Char)) :
    Value.bracketed width depth opening closing (laidOut [] (newLine width (depth + 1)) parts) =
      enclose (some width) depth opening closing parts := by
  cases parts with
  | nil => rfl
  | cons part parts =>
    have hlines : (laidOut [] (newLine width (depth + 1)) (part :: parts)).isEmpty = false := by
      simp [laidOut, newLine]
    rw [Value.bracketed, hlines, laidOut_eq_joinWith _ _ (List.cons_ne_nil part parts)]
    simp [enclose]

end Json

namespace Value

/-! ## What is outlined -/

/-- The outline of a value is the indented text of a JSON value, at every depth and whatever the
indentation. -/
def OutlinedAs (v : Value) (j : Json) : Prop :=
  ∀ width depth, outlineAt width depth v = .ok (Json.print (some width) depth j)

/-- The outline of a key and of the value under it are those of the key and the value of a member. -/
structure EntryOutlinedAs (entry : Value × Value) (member : String × Json) : Prop where
  /-- The key is outlined as the string that is the key of the member. -/
  key : outlineKey entry.1 = .ok (Json.stringText member.1)
  /-- The value is outlined as the value of the member. -/
  value : OutlinedAs entry.2 member.2

section Outline

variable {items : List Value} {js : List Json} {entries : List (Value × Value)}
  {members : List (String × Json)}

/-- The outlines of items are laid out as the texts of what they are outlined as. -/
theorem outlineItems_eq_laidOut (h : List.Forall₂ OutlinedAs items js) (width depth : Nat)
    (mark : List Char) :
    outlineItems width depth mark items =
      .ok (Json.laidOut mark (Json.newLine width depth)
        (Json.printItems (some width) depth js)) := by
  -- Only the first item has the given mark before it; a comma ends the line before each other one.
  induction h generalizing mark with
  | nil => rfl
  | cons hitem _ ih =>
    rw [outlineItems, hitem width depth, ih [',']]
    rfl

/-- The outlines of entries are laid out as the texts of the members they are outlined as. -/
theorem outlineEntries_eq_laidOut (h : List.Forall₂ EntryOutlinedAs entries members)
    (width depth : Nat) (mark : List Char) :
    outlineEntries width depth mark entries =
      .ok (Json.laidOut mark (Json.newLine width depth)
        (Json.printMembers (some width) depth members)) := by
  induction h generalizing mark with
  | nil => rfl
  | @cons entry member _ _ hentry _ ih =>
    obtain ⟨key, value⟩ := entry
    obtain ⟨name, j⟩ := member
    rw [outlineEntries, hentry.key, hentry.value width depth, ih [',']]
    simp [Json.printMembers, Json.laidOut, Json.keyMark, bind, Except.bind, pure, Except.pure]

/-- A list is outlined as the array of what its items are outlined as. -/
theorem outlinedAs_list (h : List.Forall₂ OutlinedAs items js) :
    OutlinedAs (.list items) (.array js) := by
  intro width depth
  rw [outlineAt, outlineItems_eq_laidOut h, Json.print, ← Json.bracketed_laidOut]
  rfl

/-- A tuple is outlined as the array of what its items are outlined as. -/
theorem outlinedAs_tuple (h : List.Forall₂ OutlinedAs items js) :
    OutlinedAs (.tuple items) (.array js) := by
  intro width depth
  rw [outlineAt, outlineItems_eq_laidOut h, Json.print, ← Json.bracketed_laidOut]
  rfl

/-- A map is outlined as the object of what its entries are outlined as. -/
theorem outlinedAs_map (h : List.Forall₂ EntryOutlinedAs entries members) :
    OutlinedAs (.map entries) (.object members) := by
  intro width depth
  rw [outlineAt, outlineEntries_eq_laidOut h, Json.print, ← Json.bracketed_laidOut]
  rfl

/-- A truth value is outlined as itself. -/
theorem outlinedAs_bool (b : Bool) : OutlinedAs (.bool b) (.bool b) := by
  intro width depth
  cases b <;> rfl

/-- An integer of few enough digits is outlined as the number of its decimal text. -/
theorem outlinedAs_integer {n : Int} (h : (Number.decimal n.natAbs).length ≤ Number.maxDigits) :
    OutlinedAs (.integer n) (.number (String.ofList (Number.decimalText n))) := by
  intro width depth
  have hshort : Number.isTooLong n = false := Number.isTooLong_eq_false_iff.mpr h
  simp [outlineAt, integerText, hshort, Json.print]

/-- A key that serves as a text is outlined as that text. -/
theorem outlineKey_of_text? {key : Value} {s : String} (h : key.text? = some s) :
    outlineKey key = .ok (Json.stringText s) := by
  cases key with
  | text t => cases h; rfl
  | number literal => cases h; rfl
  | _ => cases h

end Outline

mutual

/-- A structured value is outlined as what it is read as. -/
theorem outlinedAs_asRead (v : Value) (h : v.IsStructured) : OutlinedAs v v.asRead := by
  match v with
  | .null => exact fun _ _ => rfl
  | .bool b => exact outlinedAs_bool b
  | .integer n => exact outlinedAs_integer h
  | .real x => exact fun _ _ => rfl
  | .text s => exact fun _ _ => rfl
  | .number literal => exact fun _ _ => rfl
  | .list items => exact outlinedAs_list (outlinedAs_asReadItems items h)
  | .map entries => exact outlinedAs_map (outlinedAs_asReadEntries entries h.1 h.2.2)

theorem outlinedAs_asReadItems (items : List Value) (h : AllStructured items) :
    List.Forall₂ OutlinedAs items (asReadItems items) := by
  match items with
  | [] => exact .nil
  | item :: items => exact .cons (outlinedAs_asRead item h.1) (outlinedAs_asReadItems items h.2)

theorem outlinedAs_asReadEntries (entries : List (Value × Value))
    (hkeys : ∀ entry ∈ entries, entry.1.text?.isSome) (h : EntriesStructured entries) :
    List.Forall₂ EntryOutlinedAs entries (asReadEntries entries) := by
  match entries with
  | [] => exact .nil
  | (key, value) :: entries =>
    obtain ⟨s, hs⟩ := Option.isSome_iff_exists.mp (hkeys (key, value) List.mem_cons_self)
    have hkey : outlineKey key = .ok (Json.stringText (key.text?.getD "")) := by
      rw [hs]
      exact outlineKey_of_text? hs
    exact .cons ⟨hkey, outlinedAs_asRead value h.1⟩ (outlinedAs_asReadEntries entries
      (fun entry hentry => hkeys entry (List.mem_cons_of_mem _ hentry)) h.2)

end

/-! ## Reading outlines -/

theorem map_fst_asReadEntries (entries : List (Value × Value)) :
    (asReadEntries entries).map Prod.fst = entries.map fun entry => entry.1.text?.getD "" := by
  induction entries with
  | nil => rfl
  | cons entry entries ih =>
    rw [asReadEntries, List.map_cons, ih]
    rfl

/-- Keys that are different texts are different as keys of members. -/
theorem nodup_keys_asReadEntries {entries : List (Value × Value)}
    (htexts : ∀ entry ∈ entries, entry.1.text?.isSome)
    (hkeys : (entries.map fun entry => entry.1.text?).Nodup) :
    ((asReadEntries entries).map Prod.fst).Nodup := by
  have hsame : ((asReadEntries entries).map Prod.fst).map some =
      entries.map fun entry => entry.1.text? := by
    rw [map_fst_asReadEntries, List.map_map]
    refine List.map_congr_left fun entry hentry => ?_
    obtain ⟨s, hs⟩ := Option.isSome_iff_exists.mp (htexts entry hentry)
    rw [Function.comp_apply, hs, Option.getD_some]
  rw [← hsame] at hkeys
  exact List.Nodup.of_map some hkeys

mutual

/-- What a structured value is read as is well-formed. -/
theorem wellFormed_asRead (v : Value) (h : v.IsStructured) : v.asRead.WellFormed := by
  match v with
  | .integer n =>
    have hnumber := Number.isNumber_decimalText n
    rwa [← String.toList_ofList (l := Number.decimalText n)] at hnumber
  | .real x => exact Number.isNumber_text h Number.structuredWords
  | .list items => exact wellFormedItems_asRead items h
  | .map entries =>
    exact ⟨nodup_keys_asReadEntries h.1 h.2.1, wellFormedMembers_asRead entries h.2.2⟩
  | .null => trivial
  | .bool _ => trivial
  | .text _ => trivial
  | .number _ => trivial

theorem wellFormedItems_asRead (items : List Value) (h : AllStructured items) :
    Json.WellFormedItems (asReadItems items) := by
  match items with
  | [] => trivial
  | item :: items => exact ⟨wellFormed_asRead item h.1, wellFormedItems_asRead items h.2⟩

theorem wellFormedMembers_asRead (entries : List (Value × Value)) (h : EntriesStructured entries) :
    Json.WellFormedMembers (asReadEntries entries) := by
  match entries with
  | [] => trivial
  | (_, value) :: entries =>
    exact ⟨wellFormed_asRead value h.1, wellFormedMembers_asRead entries h.2⟩

end

/-- The outline of a structured value is the indented text of what it is read as. -/
theorem outline_eq_render {v : Value} (h : v.IsStructured) (width : Nat) :
    v.outline width = .ok (v.asRead.render (some width)) := by
  rw [outline, outlinedAs_asRead v h width 0]
  rfl

end Value

/-! ## Captured outlines -/

namespace Capture

/-- Lists and maps, which are captured as JSON. -/
def IsCollection (v : Value) : Prop :=
  (∃ items, v = .list items) ∨ ∃ entries, v = .map entries

/-- What begins with a bracket is not blank. -/
theorem not_isBlank_bracketed {opening : Char} (h : Text.isSpace opening = false)
    (width depth : Nat) (closing : Char) (lines : List Char) :
    Text.isBlank (String.ofList (Value.bracketed width depth opening closing lines)) = false := by
  rw [Text.isBlank, String.toList_ofList, Value.bracketed]
  split <;> simp [h]

/-- The outline of a list or a map is not blank. -/
theorem not_isBlank_of_outline {v : Value} {width : Nat} {text : String} (hv : IsCollection v)
    (h : v.outline width = .ok text) : Text.isBlank text = false := by
  obtain ⟨cs, hcs, rfl⟩ := Json.exists_of_map_eq_ok h
  rcases hv with ⟨items, rfl⟩ | ⟨entries, rfl⟩
  · obtain ⟨lines, -, rfl⟩ := Json.exists_of_map_eq_ok hcs
    exact not_isBlank_bracketed (by decide) width 0 ']' lines
  · obtain ⟨lines, -, rfl⟩ := Json.exists_of_map_eq_ok hcs
    exact not_isBlank_bracketed (by decide) width 0 '\x7d' lines

/-- A list or a map is captured as its outline. -/
theorem toText_of_outline {v : Value} {text : String} (hv : IsCollection v)
    (h : v.outline indent = .ok text) (step : String) : toText v step = .ok text := by
  have hraw : rawText v = .ok text := by
    rcases hv with ⟨items, rfl⟩ | ⟨entries, rfl⟩ <;> rw [rawText, h] <;> rfl
  rw [toText, hraw]
  simp only [not_isBlank_of_outline hv h, Bool.false_eq_true, if_false]

end Capture

end Runbook
