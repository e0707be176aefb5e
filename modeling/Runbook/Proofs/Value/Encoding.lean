import Runbook.Proofs.Value.Outline

/-!
# One text for computed values

Values are written as JSON in two ways: by way of a JSON value, as they are substituted and
delivered, and line by line, as they are captured. The two differ on a number that was read, which
is a number for the one and a text for the other. A value that has been computed holds none, and
both ways give one text for it, whatever the indentation. It makes no difference either whether its
numbers are written as they are or as they are read of their own texts.

The module introduces:

* `Value.IsComputed`: the values that are built without a number that was read;
* `Value.withLiterals`: a value with every number in it as it is read of its text;
* `Value.WrittenAs`: the JSON value that both ways write of a value.

The main result is `Value.encodings_agree`.
-/

namespace Runbook.Value

/-- A value built from null, truth values, integers that can be written, finite numbers, texts,
lists, tuples, and maps whose keys are texts. -/
inductive IsComputed : Value → Prop
  | null : IsComputed .null
  | bool {b : Bool} : IsComputed (.bool b)
  | integer {n : Int} :
      (Number.decimal n.natAbs).length ≤ Number.maxDigits → IsComputed (.integer n)
  | real {x : Number.Binary64} : x.isFinite = true → IsComputed (.real x)
  | text {s : String} : IsComputed (.text s)
  | list {items : List Value} : (∀ item ∈ items, IsComputed item) → IsComputed (.list items)
  | tuple {items : List Value} : (∀ item ∈ items, IsComputed item) → IsComputed (.tuple items)
  | map {entries : List (Value × Value)} :
      (∀ entry ∈ entries, ∃ key, entry.1 = .text key) → (∀ entry ∈ entries, IsComputed entry.2) →
      IsComputed (.map entries)

/-- A number as it is read of its text, by its characters; a value that has no text is kept. -/
def asLiteral (v : Value) : Value :=
  match v.outline 0 with
  | .ok literal => .number literal
  | .error _ => v

mutual

/-- A value with every number in it, keys apart, as it is read of its text. -/
def withLiterals : Value → Value
  | .integer n => asLiteral (.integer n)
  | .real x => asLiteral (.real x)
  | .list items => .list (withLiteralItems items)
  | .tuple items => .tuple (withLiteralItems items)
  | .map entries => .map (withLiteralEntries entries)
  | v => v

/-- Items with every number in them as it is read of its text. -/
def withLiteralItems : List Value → List Value
  | [] => []
  | item :: items => withLiterals item :: withLiteralItems items

/-- Entries with every number in their values as it is read of its text. -/
def withLiteralEntries : List (Value × Value) → List (Value × Value)
  | [] => []
  | (key, value) :: entries => (key, withLiterals value) :: withLiteralEntries entries

end

/-! ## Both ways of writing -/

/-- Both ways of writing a value write the same JSON value. -/
structure WrittenAs (v : Value) (j : Json) : Prop where
  /-- The value is that JSON value. -/
  json : v.toJson = .ok j
  /-- Its outline is the text of that JSON value. -/
  outline : OutlinedAs v j

section Written

variable {items : List Value} {entries : List (Value × Value)}

/-- What is written of items, one by one, is what is written of all of them. -/
theorem exists_writtenAs_items (h : ∀ item ∈ items, ∃ j, WrittenAs item j) :
    ∃ js, toJsonItems items = .ok js ∧ List.Forall₂ OutlinedAs items js := by
  induction items with
  | nil => exact ⟨[], rfl, .nil⟩
  | cons item items ih =>
    obtain ⟨j, hj⟩ := h item List.mem_cons_self
    obtain ⟨js, hjs, houtlined⟩ := ih fun other hother => h other (List.mem_cons_of_mem _ hother)
    refine ⟨j :: js, ?_, .cons hj.outline houtlined⟩
    rw [toJsonItems, hj.json, hjs]
    rfl

/-- What is written of the values under texts is what is written of the entries. -/
theorem exists_writtenAs_entries (hkeys : ∀ entry ∈ entries, ∃ key, entry.1 = .text key)
    (h : ∀ entry ∈ entries, ∃ j, WrittenAs entry.2 j) :
    ∃ members, toJsonEntries entries = .ok members ∧
      List.Forall₂ EntryOutlinedAs entries members := by
  induction entries with
  | nil => exact ⟨[], rfl, .nil⟩
  | cons entry entries ih =>
    obtain ⟨key, value⟩ := entry
    obtain ⟨name, rfl⟩ := hkeys (key, value) List.mem_cons_self
    obtain ⟨j, hj⟩ := h _ List.mem_cons_self
    obtain ⟨members, hmembers, houtlined⟩ :=
      ih (fun other hother => hkeys other (List.mem_cons_of_mem _ hother))
        fun other hother => h other (List.mem_cons_of_mem _ hother)
    refine ⟨(name, j) :: members, ?_, .cons ⟨rfl, hj.outline⟩ houtlined⟩
    rw [toJsonEntries, hj.json, hmembers]
    rfl

/-- An integer of few enough digits is written as its decimal text. -/
theorem writtenAs_integer {n : Int} (h : (Number.decimal n.natAbs).length ≤ Number.maxDigits) :
    WrittenAs (.integer n) (.number (String.ofList (Number.decimalText n))) := by
  refine ⟨?_, outlinedAs_integer h⟩
  rw [toJson, integerText, Number.isTooLong_eq_false_iff.mpr h]
  rfl

/-- A finite number is written as its decimal text. -/
theorem writtenAs_real {x : Number.Binary64} (h : x.isFinite = true) :
    WrittenAs (.real x) (.number (x.text Number.structuredWords)) :=
  ⟨if_pos h, fun _ _ => rfl⟩

end Written

/-- Both ways of writing a computed value write one JSON value. -/
theorem IsComputed.exists_writtenAs {v : Value} (h : v.IsComputed) : ∃ j, WrittenAs v j := by
  -- By induction on how the value is built. What is said of the parts holds at every depth, so that
  -- it can be used one level further in.
  induction h with
  | null => exact ⟨.null, rfl, fun _ _ => rfl⟩
  | @bool b => exact ⟨.bool b, rfl, outlinedAs_bool b⟩
  | integer hshort => exact ⟨_, writtenAs_integer hshort⟩
  | real hfinite => exact ⟨_, writtenAs_real hfinite⟩
  | @text s => exact ⟨.string s, rfl, fun _ _ => rfl⟩
  | list _ ih =>
    obtain ⟨js, hjs, houtlined⟩ := exists_writtenAs_items ih
    refine ⟨.array js, ?_, outlinedAs_list houtlined⟩
    rw [toJson, hjs]
    rfl
  | tuple _ ih =>
    obtain ⟨js, hjs, houtlined⟩ := exists_writtenAs_items ih
    refine ⟨.array js, ?_, outlinedAs_tuple houtlined⟩
    rw [toJson, hjs]
    rfl
  | map hkeys _ ih =>
    obtain ⟨members, hmembers, houtlined⟩ := exists_writtenAs_entries hkeys ih
    refine ⟨.object members, ?_, outlinedAs_map houtlined⟩
    rw [toJson, hmembers]
    rfl

/-! ## Numbers as they are read -/

/-- A number that has a text is written as that text. -/
theorem toJson_asLiteral {v : Value} {literal : String} (h : WrittenAs v (.number literal)) :
    v.asLiteral.toJson = v.toJson := by
  have houtline : v.outline 0 = .ok literal := by
    rw [outline, h.outline 0 0]
    exact congrArg Except.ok String.ofList_toList
  rw [asLiteral, houtline, h.json]
  rfl

/-- Items that are written as before, one by one, are written as before. -/
theorem toJsonItems_withLiteralItems {items : List Value}
    (h : ∀ item ∈ items, item.withLiterals.toJson = item.toJson) :
    toJsonItems (withLiteralItems items) = toJsonItems items := by
  induction items with
  | nil => rfl
  | cons item items ih =>
    rw [withLiteralItems, toJsonItems, toJsonItems, h item List.mem_cons_self,
      ih fun other hother => h other (List.mem_cons_of_mem _ hother)]

/-- Entries whose values are written as before are written as before. -/
theorem toJsonEntries_withLiteralEntries {entries : List (Value × Value)}
    (h : ∀ entry ∈ entries, entry.2.withLiterals.toJson = entry.2.toJson) :
    toJsonEntries (withLiteralEntries entries) = toJsonEntries entries := by
  induction entries with
  | nil => rfl
  | cons entry entries ih =>
    obtain ⟨key, value⟩ := entry
    rw [withLiteralEntries, toJsonEntries, toJsonEntries, h _ List.mem_cons_self,
      ih fun other hother => h other (List.mem_cons_of_mem _ hother)]

/-- A computed value is the same JSON value with its numbers as they are read of their texts. -/
theorem IsComputed.toJson_withLiterals {v : Value} (h : v.IsComputed) :
    v.withLiterals.toJson = v.toJson := by
  induction h with
  | null => rfl
  | bool => rfl
  | integer hshort => rw [withLiterals, toJson_asLiteral (writtenAs_integer hshort)]
  | real hfinite => rw [withLiterals, toJson_asLiteral (writtenAs_real hfinite)]
  | text => rfl
  | list _ ih => rw [withLiterals, toJson, toJson, toJsonItems_withLiteralItems ih]
  | tuple _ ih => rw [withLiterals, toJson, toJson, toJsonItems_withLiteralItems ih]
  | map _ _ ih => rw [withLiterals, toJson, toJson, toJsonEntries_withLiteralEntries ih]

/-- The two ways of writing a computed value as JSON give one text, whatever the indentation. That
text is captured of a list or a map, and it is also written of the value with its numbers as they
are read of their texts. -/
theorem encodings_agree {v : Value} (h : v.IsComputed) :
    (∀ width, ∃ text, v.encode (some width) = .ok text ∧ v.outline width = .ok text) ∧
      (Capture.IsCollection v → ∀ step, ∃ text,
        v.encode (some 2) = .ok text ∧ Capture.toText v step = .ok text) ∧
      ∀ layout, ∃ text, v.encode layout = .ok text ∧ v.withLiterals.encode layout = .ok text := by
  obtain ⟨j, hj⟩ := h.exists_writtenAs
  have hencode (layout : Json.Layout) : v.encode layout = .ok (j.render layout) := by
    rw [encode, hj.json]
    rfl
  -- A captured value stands at the outermost level.
  have houtline (width : Nat) : v.outline width = .ok (j.render (some width)) := by
    rw [outline, hj.outline width 0]
    rfl
  refine ⟨fun width => ⟨_, hencode _, houtline width⟩, fun hv step => ?_, fun layout => ?_⟩
  · exact ⟨_, hencode _, Capture.toText_of_outline hv (houtline 2) step⟩
  · refine ⟨_, hencode layout, ?_⟩
    rw [encode, h.toJson_withLiterals]
    exact hencode layout

/-- Rows with a number of either kind, a tuple with a text that is escaped, and collections without
anything in them. -/
def measurements : Value :=
  .map
    [(.text "rows", .list [.integer (-12), .real (.finite false 6755399441055744 (-52)), .null]),
      (.text "span", .tuple [.text "say \"hi\"\n", .bool true]),
      (.text "none", .list []),
      (.text "more", .map [])]

/-- The indented text of the measurements. -/
def measurementsText : String :=
  "\x7b\n  \"rows\": [\n    -12,\n    1.5,\n    null\n  ],\n" ++
    "  \"span\": [\n    \"say \\\"hi\\\"\\n\",\n    true\n  ],\n" ++
    "  \"none\": [],\n  \"more\": \x7b\x7d\n\x7d"

theorem isComputed_measurements : measurements.IsComputed := by
  refine .map (by simp) ?_
  simp only [List.forall_mem_cons]
  refine ⟨.list ?_, .tuple ?_, .list (by simp), .map (by simp) (by simp), by simp⟩
  · simp only [List.forall_mem_cons]
    exact ⟨.integer (by decide), .real rfl, .null, by simp⟩
  · simp only [List.forall_mem_cons]
    exact ⟨.text, .bool, by simp⟩

/-- Both ways write that text of the measurements, which is captured of them, too. -/
theorem encodings_agree_measurements :
    measurements.IsComputed ∧ Capture.IsCollection measurements ∧
      measurements.encode (some 2) = .ok measurementsText ∧
      measurements.outline 2 = .ok measurementsText ∧
      Capture.toText measurements "Measure" = .ok measurementsText ∧
      measurements.withLiterals.encode none = measurements.encode none := by
  have hcollection : Capture.IsCollection measurements := .inr ⟨_, rfl⟩
  have htext : measurements.encode (some 2) = .ok measurementsText := by decide +kernel
  obtain ⟨houtline, hcapture, hliterals⟩ := encodings_agree isComputed_measurements
  obtain ⟨outlined, hencoded, houtlined⟩ := houtline 2
  obtain ⟨captured, hencoded', hcaptured⟩ := hcapture hcollection "Measure"
  obtain ⟨compact, hcompact, hliteral⟩ := hliterals none
  obtain rfl := Except.ok.inj (htext.symm.trans hencoded)
  obtain rfl := Except.ok.inj (htext.symm.trans hencoded')
  exact ⟨isComputed_measurements, hcollection, htext, houtlined, hcaptured,
    hliteral.trans hcompact.symm⟩

end Runbook.Value
