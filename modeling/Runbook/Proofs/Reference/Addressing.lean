import Runbook.Capture
import Runbook.Proofs.Json.Stream
import Runbook.Proofs.Number.Index
import Runbook.Proofs.Reference.Placeholder
import Runbook.Proofs.Value.Outline

/-!
# Addressing what was captured

A structured value that an operation returns is captured as JSON, and a placeholder with a dotted
path reaches every part of it: keys name the values of maps, decimal indices the items of lists, and
what is put in for the placeholder is the text of the part that the path leads to.

The module introduces:

* `Value.Leads`: the parts that a path leads to in a value, told without the captured text;
* `Value.IsTextOf`: the text that a part is put in as.

The main result is `Capture.addressable`.
-/

namespace Runbook

namespace Value

/-- A path leads from a value to a part of it: each segment is a key of a map, or the decimal index
of an item of a list. -/
inductive Leads : Value → List String → Value → Prop
  | here (v : Value) : Leads v [] v
  | member {entries : List (Value × Value)} {key value part : Value} {segment : String}
      {path : List String} :
      (key, value) ∈ entries → key.text? = some segment → Leads value path part →
      Leads (.map entries) (segment :: path) part
  | item {items : List Value} {value part : Value} {segment : String} {path : List String}
      {index : Nat} :
      Number.IsIndex segment index → items[index]? = some value → Leads value path part →
      Leads (.list items) (segment :: path) part

/-- The text that a part of a structured value is put in as: a text itself, nothing for null, and
for every other value a text that is read as the value. -/
def IsTextOf (s : String) : Value → Prop
  | .null => s = ""
  | .text t => s = t
  | .number literal => s = literal
  | v => Json.parse .strict s = .ok v.asRead

/-! ## Following paths -/

theorem asReadItems_eq_map (items : List Value) : asReadItems items = items.map asRead := by
  induction items with
  | nil => rfl
  | cons item items ih => rw [asReadItems, ih, List.map_cons]

/-- The value under a key is found under the key's text. -/
theorem lookup_asReadEntries {entries : List (Value × Value)}
    (hkeys : ((asReadEntries entries).map Prod.fst).Nodup) {key value : Value} {segment : String}
    (hentry : (key, value) ∈ entries) (hkey : key.text? = some segment) :
    (asReadEntries entries).lookup segment = some value.asRead := by
  induction entries with
  | nil => cases hentry
  | cons entry entries ih =>
    obtain ⟨name, first⟩ := entry
    rw [asReadEntries, List.map_cons, List.nodup_cons] at hkeys
    rw [asReadEntries, List.lookup_cons]
    rcases List.mem_cons.mp hentry with hhere | hlater
    · obtain ⟨rfl, rfl⟩ := Prod.mk.inj hhere
      simp [hkey]
    · -- The keys are different, so that no earlier entry has the segment.
      have hmem : segment ∈ (asReadEntries entries).map Prod.fst := by
        rw [map_fst_asReadEntries]
        exact List.mem_map.mpr ⟨(key, value), hlater, by rw [hkey]; rfl⟩
      have hne : (segment == name.text?.getD "") = false :=
        beq_false_of_ne fun heq => hkeys.1 (heq ▸ hmem)
      rw [hne]
      exact ih hkeys.2 hlater

/-- The parts of a structured value are structured. -/
theorem isStructured_of_mem_entries {entries : List (Value × Value)}
    (h : EntriesStructured entries) {key value : Value} (hentry : (key, value) ∈ entries) :
    value.IsStructured := by
  induction entries with
  | nil => cases hentry
  | cons entry entries ih =>
    obtain ⟨name, first⟩ := entry
    rcases List.mem_cons.mp hentry with hhere | hlater
    · obtain ⟨rfl, rfl⟩ := Prod.mk.inj hhere
      exact h.1
    · exact ih h.2 hlater

theorem isStructured_of_mem_items {items : List Value} (h : AllStructured items) {value : Value}
    (hitem : value ∈ items) : value.IsStructured := by
  induction items with
  | nil => cases hitem
  | cons item items ih =>
    rcases List.mem_cons.mp hitem with rfl | hlater
    · exact h.1
    · exact ih h.2 hlater

/-- Where a path leads in a structured value, the pointer follows it in what the value is read
as. -/
theorem Leads.followAll {v part : Value} {path : List String} (h : Leads v path part)
    (hv : v.IsStructured) (shown : String) :
    Pointer.followAll shown v.asRead path = .ok part.asRead ∧ part.IsStructured := by
  induction h with
  | here v => exact ⟨rfl, hv⟩
  | @member entries key value part segment path hentry hkey _ ih =>
    have hlookup : Json.member? segment (asReadEntries entries) = some value.asRead :=
      lookup_asReadEntries (nodup_keys_asReadEntries hv.1 hv.2.1) hentry hkey
    have hfollow : Pointer.follow shown (asRead (.map entries)) segment = .ok value.asRead := by
      rw [asRead, Pointer.follow, hlookup]
    rw [Pointer.followAll, hfollow]
    exact ih (isStructured_of_mem_entries hv.2.2 hentry)
  | @item items value part segment path index hindex hitem _ ih =>
    have hfollow : Pointer.follow shown (asRead (.list items)) segment = .ok value.asRead := by
      simp [asRead, Pointer.follow, hindex.isDigits, hindex.readInteger_eq, asReadItems_eq_map,
        hitem]
    rw [Pointer.followAll, hfollow]
    exact ih (isStructured_of_mem_items hv (List.mem_of_getElem? hitem))

/-- The text of a number is its characters, in every layout. -/
theorem render_number (literal : String) (layout : Json.Layout) :
    (Json.number literal).render layout = literal := by
  rw [Json.render, Json.print, String.ofList_toList]

/-- What a structured value is read as is put in as the text of the value. -/
theorem isTextOf_inserted {v : Value} (h : v.IsStructured) : IsTextOf v.asRead.inserted v := by
  have hparse := Json.parse_render (wellFormed_asRead v h) none
  cases v with
  | null => rfl
  | text s => rfl
  | number literal => rfl
  | bool b => exact hparse
  | integer n =>
    rw [asRead, render_number] at hparse
    exact hparse
  | real x =>
    rw [asRead, render_number] at hparse
    exact hparse
  | list items => exact hparse
  | map entries => exact hparse
  | _ => cases h

end Value

/-! ## Captured texts -/

namespace Capture

/-- A structured list or map is captured as the indented text of what it is read as. -/
theorem toText_eq_render {v : Value} (hv : v.IsStructured) (hcollection : IsCollection v)
    (step : String) : toText v step = .ok (v.asRead.render (some indent)) :=
  toText_of_outline hcollection (Value.outline_eq_render hv indent) step

/-- Structured results are addressable without loss. A list or map built from null, truth values,
integers, finite numbers, texts, lists and maps with different texts as keys is captured as a text
that is read as the same value, each number by its characters. Wherever that text is kept as the
output of a step, a placeholder with a path that leads to a part of the value is replaced by the
text of that part. -/
theorem addressable {raw : Value} (hraw : raw.IsStructured) (hcollection : IsCollection raw)
    (capturing : String) :
    ∃ text, toText raw capturing = .ok text ∧ Json.parse .strict text = .ok raw.asRead ∧
      ∀ (results : Results) (step output : String) (outputs : Outputs) (format : String)
        (path : List String) (part : Value),
        Reference.IsName step → Reference.IsName output →
        results.lookup step = some outputs → outputs.lookup output = some ⟨text, format⟩ →
        path ≠ [] → Reference.AreSegments path → raw.Leads path part →
        ∃ inserted,
          Substitution.inText results
            ("\x7b" ++ step ++ "." ++ output ++ "." ++ Text.join "." path ++ "\x7d") =
              .ok inserted ∧
          part.IsTextOf inserted := by
  have hparse := Json.parse_render (Value.wellFormed_asRead raw hraw) (some indent)
  refine ⟨_, toText_eq_render hraw hcollection capturing, hparse, ?_⟩
  intro results step output outputs format path part hstep houtput hresults houtputs hsome hpath
    hleads
  -- The pointer walks in what was read along the path that leads to the part in the value.
  obtain ⟨hfollow, hpart⟩ :=
    hleads.followAll hraw (step ++ "." ++ output ++ "." ++ Text.join "." path)
  have hresolve : Pointer.resolve results step (Reference.ofPath step output path).output =
      .ok part.asRead := by
    rw [Pointer.resolve_ofPath houtput hpath hsome hresults houtputs hparse, hfollow]
  have hscannable := Reference.isScannable_ofPath hstep houtput hpath
  refine ⟨part.asRead.inserted, ?_, Value.isTextOf_inserted hpart⟩
  rw [← Reference.text_ofPath]
  exact Substitution.inText_text hscannable hresolve

/-- A list with a list of numbers of two kinds. -/
def sampleItems : List Value :=
  [.bool true, .list [.integer (-12), .real (.finite false 3 (-1))], .map []]

/-- A map with a key that looks like an index, an empty key, and the list. -/
def sampleRaw : Value :=
  .map [(.text "1", .text "say \"hi\"\n"), (.text "", .null), (.text "items", .list sampleItems)]

theorem isStructured_sampleRaw : sampleRaw.IsStructured := by
  have hinteger : (Value.integer (-12)).IsStructured := by
    change (Number.decimal 12).length ≤ Number.maxDigits
    decide
  refine ⟨by decide, by decide, trivial, trivial, ⟨trivial, ?_, ?_, trivial⟩, trivial⟩
  · exact ⟨hinteger, rfl, trivial⟩
  · exact ⟨by decide, by decide, trivial⟩

/-- The second number of the inner list is reached by indices, one with a zero in front. -/
theorem leads_sampleRaw :
    sampleRaw.Leads ["items", "1", "01"] (.real (.finite false 3 (-1))) := by
  have hdigits {text : String} (h : text.toList.all Text.isAsciiDigit = true) :
      Json.AllDigits text.toList := List.all_eq_true.mp h
  have hone : Number.IsIndex "1" 1 := ⟨by decide, hdigits (by decide), by decide, by decide⟩
  have hzeroOne : Number.IsIndex "01" 1 := ⟨by decide, hdigits (by decide), by decide, by decide⟩
  have hentry : (Value.text "items", Value.list sampleItems) ∈
      [(.text "1", .text "say \"hi\"\n"), (.text "", .null), (.text "items", .list sampleItems)] :=
    by simp
  have hinner : sampleItems[1]? =
      some (.list [.integer (-12), .real (.finite false 3 (-1))]) := rfl
  have hlast : [Value.integer (-12), .real (.finite false 3 (-1))][1]? =
      some (.real (.finite false 3 (-1))) := rfl
  exact .member hentry rfl (.item hone hinner (.item hzeroOne hlast (.here _)))

/-- The placeholder of that path is replaced by the decimal text of the number. -/
theorem addressable_sample :
    sampleRaw.IsStructured ∧ IsCollection sampleRaw ∧
      ∃ text, toText sampleRaw "Measure" = .ok text ∧
        ∃ inserted,
          Substitution.inText [("Measure", [("Result", ⟨text, "text"⟩)])]
            "\x7bMeasure.Result.items.1.01\x7d" = .ok inserted ∧
          Json.parse .strict inserted = .ok (.number "1.5") := by
  have hcollection : IsCollection sampleRaw := .inr ⟨_, rfl⟩
  obtain ⟨text, hcaptured, -, haddress⟩ := addressable isStructured_sampleRaw hcollection "Measure"
  obtain ⟨inserted, hinserted, hpart⟩ := haddress [("Measure", [("Result", ⟨text, "text"⟩)])]
    "Measure" "Result" [("Result", ⟨text, "text"⟩)] "text" ["items", "1", "01"] _
    (by decide) (by decide) rfl rfl (by decide) (by decide) leads_sampleRaw
  have htext : (Number.Binary64.finite false 3 (-1)).text Number.structuredWords = "1.5" := by
    decide +kernel
  have hnumber : Value.asRead (.real (.finite false 3 (-1))) = .number "1.5" :=
    congrArg Json.number htext
  refine ⟨isStructured_sampleRaw, hcollection, text, hcaptured, inserted, hinserted, ?_⟩
  rw [← hnumber]
  exact hpart

end Capture

end Runbook
