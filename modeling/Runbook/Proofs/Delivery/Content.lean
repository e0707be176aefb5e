import Runbook.Delivery.Render
import Runbook.Proofs.Json.Stream

/-!
# The content of delivered files

The values of a JSON output come back from the file that they are delivered to, gathered under
`data`: all of them, in order, and each as it was read, but for the package that an object about a
file may gain. Whatever is delivered, the file ends in one line end.

The module introduces:

* `Delivery.Enriched`: what an item may become on its way to the file;
* `Delivery.EndsInOneLine`: a text ends in a line end, and in one only.

The main result is `Delivery.content_of_render`.
-/

namespace Runbook

namespace Text

/-- Folding a character is lowering it, of which only ASCII capitals know anything. -/
theorem foldChar_eq_toLower (c : Char) : foldChar c = c.toLower := by
  rw [foldChar]
  delta Char.toLower
  simp only [Bool.and_eq_true, decide_eq_true_eq]
  by_cases h : 'A' ≤ c ∧ c ≤ 'Z'
  · have hval : c.val ≥ 'A'.val ∧ c.val ≤ 'Z'.val := h
    have hcode : 65 ≤ c.toNat ∧ c.toNat ≤ 90 := hval
    have hvalid : (c.toNat + 32).isValidChar := by
      left
      omega
    rw [if_pos h, dif_pos hval]
    -- Both add 32 to the code; the sum of words of 32 bits does not overflow.
    refine Char.toNat_inj.mp ?_
    calc (Char.ofNat (c.toNat + 32)).toNat
      _ = c.toNat + 32 := toNat_ofNat hvalid
      _ = (c.val + ('a'.val - 'A'.val)).toNat := by
        rw [UInt32.toNat_add]
        change c.toNat + 32 = (c.toNat + 32) % 2 ^ 32
        omega
  · have hval : ¬(c.val ≥ 'A'.val ∧ c.val ≤ 'Z'.val) := h
    rw [if_neg h, dif_neg hval]

theorem foldCase_eq_toLower (s : String) : foldCase s = s.toLower := by
  have hmap : s.toList.map foldChar = s.toList.map Char.toLower :=
    List.map_congr_left fun c _ => foldChar_eq_toLower c
  change foldCase s = s.map Char.toLower
  rw [foldCase, hmap, ← String.toList_map, String.ofList_toList]

/-- What is left without the characters at the end does not end in such a character. -/
theorem not_of_getLast?_dropEnd {p : Char → Bool} {cs : List Char} :
    ∀ c ∈ (dropEnd p cs).getLast?, p c = false := by
  intro c hc
  rw [dropEnd, List.getLast?_reverse] at hc
  have hhead := List.head?_dropWhile_not p cs.reverse
  rw [Option.mem_def.mp hc] at hhead
  exact hhead

end Text

/-- A format is the one for JSON just if it is `json` in lower case. -/
theorem isJsonFormat_iff (format : String) :
    isJsonFormat format = true ↔ format.toLower = "json" := by
  rw [isJsonFormat, Text.foldCase_eq_toLower, beq_iff_eq]

namespace Delivery

/-! ## Packages -/

/-- What an item may become: itself or, if it is an object without a package, that object with a
package as its last member. -/
inductive Enriched : Json → Json → Prop
  | same (item : Json) : Enriched item item
  | package {members : List (String × Json)} (name : String) :
      packageField ∉ members.map Prod.fst →
      Enriched (.object members) (.object (members ++ [(packageField, .string name)]))

theorem notMem_keys_of_member? {key : String} {members : List (String × Json)}
    (h : ¬(Json.member? key members).isSome = true) : key ∉ members.map Prod.fst := by
  intro hmem
  obtain ⟨member, hmember, rfl⟩ := List.mem_map.mp hmem
  have hnone : members.lookup member.1 = none := Option.not_isSome_iff_eq_none.mp h
  have hne := List.lookup_eq_none_iff.mp hnone member hmember
  simp at hne

/-- An object gains a package, if at all, as its last member and when it has none. -/
theorem enriched_withPackage (item : Json) : Enriched item (withPackage item) := by
  cases item with
  | object members =>
    rw [withPackage]
    split
    · exact .same _
    · rename_i hnone
      split
      · rename_i file hfile
        exact .package (ShortName.of file) (notMem_keys_of_member? hnone)
      · exact .same _
  | _ => exact .same _

/-- An item that gains a package is as well-formed as it was. -/
theorem Enriched.wellFormed {item enriched : Json} (h : Enriched item enriched)
    (hitem : item.WellFormed) : enriched.WellFormed := by
  cases h with
  | same => exact hitem
  | @package members name hfresh =>
    obtain ⟨hkeys, hvalues⟩ := hitem
    refine ⟨?_, ?_⟩
    · rw [List.map_append, List.map_singleton, ← List.concat_eq_append]
      exact hkeys.concat hfresh
    · rw [Json.wellFormedMembers_iff] at hvalues ⊢
      intro member hmember
      rcases List.mem_append.mp hmember with hmember | hmember
      · exact hvalues member hmember
      · rw [List.mem_singleton.mp hmember]
        trivial

/-! ## Documents -/

/-- The items of a single array are well-formed as the array is. -/
theorem wellFormed_of_mem_normalize {values : List Json} (h : ∀ j ∈ values, j.WellFormed) :
    ∀ item ∈ normalize values, item.WellFormed := by
  unfold normalize
  split
  · rename_i items
    exact Json.wellFormedItems_iff.mp (h (.array items) (List.mem_singleton_self _))
  · exact h

theorem wellFormed_gathered {values : List Json} (h : ∀ j ∈ values, j.WellFormed) :
    (gathered values).WellFormed := by
  refine ⟨List.pairwise_singleton _ _, ?_, trivial⟩
  rw [Json.WellFormed, Json.wellFormedItems_iff]
  intro item hitem
  obtain ⟨original, hmem, rfl⟩ := List.mem_map.mp hitem
  exact (enriched_withPackage original).wellFormed (wellFormed_of_mem_normalize h original hmem)

/-- The document that values are gathered into is read back from its file. -/
theorem parse_jsonContent {values : List Json} (h : ∀ j ∈ values, j.WellFormed) :
    Json.parse .strict (jsonContent values) = .ok (gathered values) := by
  have hline : Json.IsBlank ['\n'] := Json.isBlank_newLine 0 0
  refine Json.parse_of_denotes ⟨[], _, ['\n'], Json.isBlank_nil, hline,
    Json.denotes_print (some 2) 0 (gathered values) (wellFormed_gathered h), ?_⟩
  rw [jsonContent, String.toList_append, Json.render, String.toList_ofList]
  rfl

/-! ## Line ends -/

/-- A text ends in a line end, and in one only. -/
def EndsInOneLine (cs : List Char) : Prop :=
  ∃ body, cs = body ++ ['\n'] ∧ body.getLast? ≠ some '\n'

/-- A collection ends with its closing bracket. -/
theorem getLast?_enclose (layout : Json.Layout) (depth : Nat) (opening closing : Char)
    (parts : List (List Char)) :
    (Json.enclose layout depth opening closing parts).getLast? = some closing := by
  by_cases h : parts = []
  · rw [h]
    rfl
  · obtain ⟨before, after, -, -, henclose⟩ :=
      Json.enclose_of_ne_nil layout depth opening closing h
    rw [henclose, ← List.append_assoc, ← List.cons_append, List.getLast?_concat]

theorem endsInOneLine_jsonContent (values : List Json) :
    EndsInOneLine (jsonContent values).toList := by
  refine ⟨Json.print (some 2) 0 (gathered values), ?_, ?_⟩
  · rw [jsonContent, String.toList_append, Json.render, String.toList_ofList]
    rfl
  · rw [gathered, Json.print, getLast?_enclose]
    decide

theorem endsInOneLine_textContent (s : String) : EndsInOneLine (textContent s).toList := by
  refine ⟨Text.dropEnd (· == '\n') s.toList, ?_, ?_⟩
  · rw [textContent, String.toList_append, String.toList_ofList]
    rfl
  · intro hlast
    have hnot := Text.not_of_getLast?_dropEnd '\n' hlast
    simp at hnot

theorem endsInOneLine_render (step : Step) (captured : Captured) :
    EndsInOneLine (render step captured).toList := by
  unfold render
  split
  · split
    · exact endsInOneLine_jsonContent _
    · exact endsInOneLine_textContent _
  · exact endsInOneLine_textContent _

/-! ## Contents -/

theorem render_of_parseMany {step : Step} {captured : Captured} {values : List Json}
    (hformat : step.outputFormat.toLower = "json" ∨ captured.format.toLower = "json")
    (h : Json.parseMany captured.value = .ok values) :
    render step captured = jsonContent values := by
  have hwants : wantsJson step captured = true := by
    rw [wantsJson, Bool.or_eq_true]
    exact hformat.imp (isJsonFormat_iff _).mpr (isJsonFormat_iff _).mpr
  rw [render, if_pos hwants, h]

/-- If the format that a step declares for its output, or the one that it was captured with, is JSON
in any letter case, then the values of the output come back from the file, gathered in a list under
`data`, and each is as it was or has a package as its last member that it did not have. Every file,
whatever it holds, ends in one line end. -/
theorem content_of_render (step : Step) (captured : Captured) :
    (∀ values, step.outputFormat.toLower = "json" ∨ captured.format.toLower = "json" →
      Json.parseMany captured.value = .ok values →
      Json.parse .strict (render step captured) =
          .ok (.object [("data", .array ((normalize values).map withPackage))]) ∧
        List.Forall₂ Enriched (normalize values) ((normalize values).map withPackage)) ∧
    EndsInOneLine (render step captured).toList := by
  refine ⟨fun values hformat hvalues => ⟨?_, ?_⟩, endsInOneLine_render step captured⟩
  · rw [render_of_parseMany hformat hvalues]
    exact parse_jsonContent (Json.wellFormed_of_parseMany hvalues)
  · rw [List.forall₂_map_right_iff]
    exact List.forall₂_same.mpr fun item _ => enriched_withPackage item

/-- A step that declares its output to be JSON. -/
def sampleStep : Step :=
  { name := "Scan", type := "scan", output := some ⟨"Report", "JSON"⟩ }

/-- An object about a file. -/
def sampleItem : Json :=
  .object [("file", .string "in/Load.dtsx"), ("n", .number "1.50")]

/-- Two values, one of them about a file. -/
def sampleCaptured : Captured :=
  ⟨"\x7b\"file\":\"in/Load.dtsx\",\"n\":1.50\x7d \"x\"", "text"⟩

theorem wellFormed_sampleItem : sampleItem.WellFormed :=
  ⟨by decide, trivial, Json.isNumber_fraction, trivial⟩

/-- The values are found in the text, in which a space stands between them. -/
theorem parseMany_sampleCaptured :
    Json.parseMany sampleCaptured.value = .ok [sampleItem, .string "x"] := by
  have hitem := Json.parse_render wellFormed_sampleItem none
  have hother : Json.parse .strict (Json.render none (.string "x")) = .ok (.string "x") :=
    Json.parse_render (by trivial) none
  have hspace : Json.IsSpaces [' '] := by
    intro c hc
    obtain rfl := List.mem_singleton.mp hc
    decide
  exact (Json.parseMany_joined (List.cons_ne_nil _ _) (.cons hitem (.cons hother .nil))).2 _
    (.cons hspace (fun h => absurd h (List.cons_ne_nil _ _)) (.last _ _))

/-- The object about a file gains its package, and nothing else changes. -/
theorem content_of_render_sample :
    sampleStep.outputFormat.toLower = "json" ∧
      Json.parseMany sampleCaptured.value = .ok [sampleItem, .string "x"] ∧
      Json.parse .strict (render sampleStep sampleCaptured) =
        .ok (.object [("data", .array
          [.object [("file", .string "in/Load.dtsx"), ("n", .number "1.50"),
            ("package", .string "Load")], .string "x"])]) := by
  have hformat : sampleStep.outputFormat.toLower = "json" := (isJsonFormat_iff _).mp (by decide)
  obtain ⟨hparse, -⟩ :=
    (content_of_render sampleStep sampleCaptured).1 _ (.inl hformat) parseMany_sampleCaptured
  exact ⟨hformat, parseMany_sampleCaptured, hparse.trans rfl⟩

end Delivery

end Runbook
