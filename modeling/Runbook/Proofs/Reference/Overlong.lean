import Runbook.Proofs.Reference.Agreement
import Runbook.Proofs.Reference.Placeholder
import Runbook.Proofs.Reference.Unreadable

/-!
# Overlong indices

A segment of digits is read as an integer where a path comes to an array, and integers are read only
up to a number of digits. A placeholder with a longer index does not just lead nowhere, which would
be a failure of the step that it stands in: the index cannot be read at all. Nothing else keeps a
placeholder from either leading to a value or leading nowhere.

The module introduces:

* `Pointer.MeetsOverlong`: a path comes to an array with a segment of too many digits;
* `Reference.IsOverlong`: a placeholder's path does so in the captured text that it points into.

The main results are `Reference.fault_eq_index_iff` and `Substitution.inValue_error`.
-/

namespace Runbook

namespace Reference

/-- The characters of names are ASCII ones. -/
theorem toNat_lt_of_isNameChar {c : Char} (h : isNameChar c = true) : c.toNat < 128 := by
  simp [isNameChar, Char.le_def, UInt32.le_iff_toNat_le] at h
  have hvalue : c.toNat = c.val.toNat := rfl
  rcases h with (((h | h) | h) | rfl) | rfl
  · omega
  · omega
  · omega
  · decide
  · decide

theorem AreSegments.isAscii {path : List String} (h : AreSegments path) {segment : String}
    (hsegment : segment ∈ path) : Text.IsAscii segment.toList :=
  fun c hc => toNat_lt_of_isNameChar (h segment hsegment c hc)

end Reference

/-! ## Paths -/

namespace Pointer

/-- A path into a value comes to an array with a segment of more digits than are read. -/
inductive MeetsOverlong : Json → List String → Nat → Prop
  | index {items : List Json} {segment : String} {segments : List String} :
      Json.AllDigits segment.toList → Number.maxDigits < segment.length →
      MeetsOverlong (.array items) (segment :: segments) segment.length
  | item {items : List Json} {segment : String} {index : Nat} {next : Json}
      {segments : List String} {count : Nat} :
      Number.IsIndex segment index → items[index]? = some next →
      MeetsOverlong next segments count → MeetsOverlong (.array items) (segment :: segments) count
  | member {members : List (String × Json)} {segment : String} {next : Json}
      {segments : List String} {count : Nat} :
      Json.member? segment members = some next → MeetsOverlong next segments count →
      MeetsOverlong (.object members) (segment :: segments) count

theorem MeetsOverlong.maxDigits_lt {data : Json} {segments : List String} {count : Nat}
    (h : MeetsOverlong data segments count) : Number.maxDigits < count := by
  induction h with
  | index _ hlong => exact hlong
  | item _ _ _ ih => exact ih
  | member _ _ ih => exact ih

/-- On a path of ASCII characters the digits that cannot be read are those of which there are too
many. -/
theorem meetsUnreadable_iff {data : Json} {segments : List String} {fault : Number.IntegerFault}
    (hsegments : ∀ segment ∈ segments, Text.IsAscii segment.toList) :
    MeetsUnreadable data segments fault ↔
      ∃ count, MeetsOverlong data segments count ∧ fault = .tooManyDigits count := by
  constructor
  · intro h
    induction h with
    | @here items segment segments fault hdigits hunreadable =>
      have hall := Text.allDigits_of_isDigits (hsegments segment List.mem_cons_self) hdigits
      obtain ⟨hlong, rfl⟩ := (Number.isUnreadable_iff_of_allDigits hall).mp hunreadable
      exact ⟨_, .index hall hlong, rfl⟩
    | @later current next segment segments fault hstep _ ih =>
      obtain ⟨count, hmeets, hfault⟩ := ih fun s hs => hsegments s (List.mem_cons_of_mem _ hs)
      refine ⟨count, ?_, hfault⟩
      cases hstep with
      | member hmember => exact .member hmember hmeets
      | item hnumeral hitem =>
        have hall := Text.allDigits_of_isDigits (hsegments segment List.mem_cons_self)
          hnumeral.isDigits
        exact .item ((Number.isNumeral_iff_of_allDigits hall).mp hnumeral) hitem hmeets
  · rintro ⟨count, hmeets, rfl⟩
    induction hmeets with
    | @index items segment segments hall hlong =>
      have hdigits : Text.isDigits segment.toList = true := by
        refine Text.isDigits_iff.mpr ⟨?_, fun c hc =>
          Text.isDigit_of_isDecimal (Text.isDecimal_of_isAsciiDigit (hall c hc))⟩
        rw [← List.length_pos_iff, String.length_toList]
        exact Nat.lt_of_le_of_lt (Nat.zero_le _) hlong
      exact .here hdigits ((Number.isUnreadable_iff_of_allDigits hall).mpr ⟨hlong, rfl⟩)
    | item hindex hitem _ ih =>
      exact .later (.item hindex.isNumeral hitem)
        (ih fun s hs => hsegments s (List.mem_cons_of_mem _ hs))
    | member hmember _ ih =>
      exact .later (.member hmember) (ih fun s hs => hsegments s (List.mem_cons_of_mem _ hs))

end Pointer

/-! ## Placeholders -/

namespace Reference

/-- A placeholder points into a captured text, and its path comes to an array there with a segment
of too many digits. -/
def IsOverlong (results : Results) (r : Reference) (count : Nat) : Prop :=
  ∃ outputs name path captured data, results.lookup r.step = some outputs ∧
    Pointer.splitOutput r.output = (name, some path) ∧ outputs.lookup name = some captured ∧
    Json.parse .strict captured.value = .ok data ∧
    Pointer.MeetsOverlong data (Text.splitAt '.' path) count

/-- The path of a placeholder is made of segments that can stand in one. -/
theorem IsScannable.areSegments {r : Reference} (h : r.IsScannable) {name path : String}
    (hsplit : Pointer.splitOutput r.output = (name, some path)) :
    AreSegments (Text.splitAt '.' path) := by
  intro segment hsegment c hc
  have hmem := Pointer.mem_splitAt_of_splitOutput hsplit hsegment
  have houtput := h.output c (Text.mem_of_mem_splitAt hmem hc)
  have hpoint : c ≠ '.' := fun heq => Text.notMem_of_mem_splitAt hmem (heq ▸ hc)
  simpa [isOutputChar, hpoint] using houtput

/-- All placeholders that are found in a text are ones that a text can hold. -/
theorem isScannable_of_mem_ofText {s : String} {r : Reference} (h : r ∈ ofText s) :
    r.IsScannable := by
  obtain ⟨piece, hpiece, hr⟩ := List.mem_filterMap.mp h
  have hpieces (skip : Nat) (cs : List Char) (hmem : piece ∈ piecesFrom skip cs) :
      r.IsScannable := by
    induction cs generalizing skip with
    | nil => cases skip <;> cases hmem
    | cons c cs ih =>
      cases skip with
      | succ skip => exact ih skip hmem
      | zero =>
        rw [piecesFrom] at hmem
        split at hmem
        · rename_i found length hat
          rcases List.mem_cons.mp hmem with rfl | hmem
          · cases hr
            exact (at?_eq_some_iff.mp hat).1
          · exact ih length hmem
        · rcases List.mem_cons.mp hmem with rfl | hmem
          · cases hr
          · exact ih 0 hmem
  exact hpieces 0 s.toList hpiece

mutual

/-- All placeholders that are found in a value are ones that a text can hold. -/
theorem isScannable_of_mem_ofValue {v : Value} {r : Reference} (h : r ∈ ofValue v) :
    r.IsScannable := by
  cases v with
  | text s => exact isScannable_of_mem_ofText h
  | number literal => exact isScannable_of_mem_ofText h
  | list items => exact isScannable_of_mem_ofItems h
  | map entries => exact isScannable_of_mem_ofEntries h
  | _ => cases h

theorem isScannable_of_mem_ofItems {items : List Value} {r : Reference} (h : r ∈ ofItems items) :
    r.IsScannable := by
  cases items with
  | nil => cases h
  | cons item items =>
    rcases List.mem_append.mp h with h | h
    · exact isScannable_of_mem_ofValue h
    · exact isScannable_of_mem_ofItems h

theorem isScannable_of_mem_ofEntries {entries : List (Value × Value)} {r : Reference}
    (h : r ∈ ofEntries entries) : r.IsScannable := by
  cases entries with
  | nil => cases h
  | cons entry entries =>
    obtain ⟨key, value⟩ := entry
    rcases List.mem_append.mp h with h | h
    · exact isScannable_of_mem_ofValue h
    · exact isScannable_of_mem_ofEntries h

end

/-- Following a placeholder either succeeds, or leads nowhere, or meets an index that cannot be
read, the last just if the placeholder is overlong. -/
theorem fault_eq_index_iff {results : Results} {r : Reference} (h : r.IsScannable)
    {fault : Number.IntegerFault} :
    r.fault results = some (.index fault) ↔
      ∃ count, r.IsOverlong results count ∧ fault = .tooManyDigits count := by
  -- The characters of a placeholder are ASCII ones.
  have hmeets {name path : String} (hsplit : Pointer.splitOutput r.output = (name, some path))
      {data : Json} : Pointer.MeetsUnreadable data (Text.splitAt '.' path) fault ↔
        ∃ count, Pointer.MeetsOverlong data (Text.splitAt '.' path) count ∧
          fault = .tooManyDigits count :=
    Pointer.meetsUnreadable_iff fun _ hsegment => (h.areSegments hsplit).isAscii hsegment
  rw [Reference.fault, fault_eq_some_iff, Pointer.resolve_eq_index_iff]
  constructor
  · rintro ⟨outputs, name, path, captured, data, hstep, hsplit, houtput, hparse, hunreadable⟩
    obtain ⟨count, hoverlong, hfault⟩ := (hmeets hsplit).mp hunreadable
    exact ⟨count,
      ⟨outputs, name, path, captured, data, hstep, hsplit, houtput, hparse, hoverlong⟩, hfault⟩
  · rintro ⟨count, ⟨outputs, name, path, captured, data, hstep, hsplit, houtput, hparse, hoverlong⟩,
      hfault⟩
    exact ⟨outputs, name, path, captured, data, hstep, hsplit, houtput, hparse,
      (hmeets hsplit).mpr ⟨count, hoverlong, hfault⟩⟩

/-- The placeholder of a path that meets an overlong index is overlong. -/
theorem isOverlong_ofPath {results : Results} {step output : String} {outputs : Outputs}
    {captured : Captured} {data : Json} {path : List String} {count : Nat}
    (houtput : IsName output) (hpath : AreSegments path)
    (hresults : results.lookup step = some outputs)
    (houtputs : outputs.lookup output = some captured)
    (hparse : Json.parse .strict captured.value = .ok data)
    (hmeets : Pointer.MeetsOverlong data path count) :
    (ofPath step output path).IsOverlong results count := by
  have hsome : path ≠ [] := by
    rintro rfl
    cases hmeets
  have hsegments : Text.splitAt '.' (Text.join "." path) = path :=
    Text.splitAt_join hsome fun segment hsegment => hpath.not_mem_point hsegment
  exact ⟨outputs, output, Text.join "." path, captured, data, hresults,
    Pointer.splitOutput_append houtput.not_mem_point _, houtputs, hparse, hsegments.symm ▸ hmeets⟩

/-- A text that is one placeholder holds that placeholder. -/
theorem ofText_text {r : Reference} (h : r.IsScannable) : ofText (String.ofList r.text) = [r] := by
  rw [ofText, pieces, String.toList_ofList, ← List.append_nil r.text, piecesFrom_text h]
  rfl

end Reference

namespace Substitution

/-- Replacing the placeholders of a value fails only because one of them leads nowhere or is
overlong. -/
theorem inValue_error {results : Results} {v : Value} {e : Pointer.Error}
    (h : inValue results v = .error e) :
    (∃ reason, e = .unresolved reason) ∨
      ∃ r ∈ Reference.ofValue v, ∃ count, r.IsOverlong results count ∧
        Number.maxDigits < count ∧ e = .index (.tooManyDigits count) := by
  cases e with
  | unresolved reason => exact .inl ⟨reason, rfl⟩
  | index fault =>
    have hfault := fault_eq_some_iff.mpr h
    rw [fault_inValue] at hfault
    obtain ⟨r, hr, hfault⟩ := List.exists_of_findSome?_eq_some hfault
    obtain ⟨count, hoverlong, rfl⟩ :=
      (Reference.fault_eq_index_iff (Reference.isScannable_of_mem_ofValue hr)).mp hfault
    obtain ⟨_, _, _, _, _, _, _, _, _, hmeets⟩ := id hoverlong
    exact .inr ⟨r, hr, count, hoverlong, hmeets.maxDigits_lt, rfl⟩

end Substitution

end Runbook
