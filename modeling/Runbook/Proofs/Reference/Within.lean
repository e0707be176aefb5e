import Mathlib.Data.List.Infix
import Runbook.Proofs.Reference.Occurrence

/-!
# Placeholders within values and tokens

The placeholders of a value are those of its texts. A text may have placeholders just because a
token occurs in it that is one or holds one; then they are the placeholders of the token, and a
token without a point has none.

The module introduces:

* `Value.HoldsText`: the texts of a value;
* `Reference.OnlyWithin`: the only placeholders of a text stand in occurrences of a token.

The main results are `Reference.mem_ofValue_iff` and `Reference.OnlyWithin.mem_ofText_iff`.
-/

namespace Runbook

/-- A text is part of a value: it is the value, or part of an item of a list or of the value of an
entry of a map. A number that was read serves as a text. -/
inductive Value.HoldsText : Value → String → Prop
  | text {s : String} : HoldsText (.text s) s
  | number {literal : String} : HoldsText (.number literal) literal
  | item {items : List Value} {item : Value} {s : String} :
      item ∈ items → HoldsText item s → HoldsText (.list items) s
  | entry {entries : List (Value × Value)} {entry : Value × Value} {s : String} :
      entry ∈ entries → HoldsText entry.2 s → HoldsText (.map entries) s

namespace Reference

/-- The only placeholders of a text stand in occurrences of a token. -/
def OnlyWithin (token s : String) : Prop :=
  ∀ start r, OccursAt s.toList start r →
    ∃ place, token.toList <+: s.toList.drop place ∧ place ≤ start ∧
      start + r.text.length ≤ place + token.toList.length

/-! ## The placeholders of a value -/

theorem mem_ofText_iff {s : String} {r : Reference} :
    r ∈ ofText s ↔ ∃ start, OccursAt s.toList start r := by
  obtain ⟨places, hlisting, hplaces⟩ := exists_isListing s
  rw [← hplaces, List.mem_map]
  constructor
  · rintro ⟨⟨start, r⟩, hplace, rfl⟩
    exact ⟨start, (hlisting.mem_iff start r).mp hplace⟩
  · rintro ⟨start, hoccurs⟩
    exact ⟨(start, r), (hlisting.mem_iff start r).mpr hoccurs, rfl⟩

theorem mem_ofItems_iff {items : List Value} {r : Reference} :
    r ∈ ofItems items ↔ ∃ item ∈ items, r ∈ ofValue item := by
  induction items with
  | nil => simp [ofItems]
  | cons item items ih => simp [ofItems, ih]

theorem mem_ofEntries_iff {entries : List (Value × Value)} {r : Reference} :
    r ∈ ofEntries entries ↔ ∃ entry ∈ entries, r ∈ ofValue entry.2 := by
  induction entries with
  | nil => simp [ofEntries]
  | cons entry entries ih => simp [ofEntries, ih]

theorem mem_ofValue_of_holdsText {v : Value} {s : String} (h : v.HoldsText s) {r : Reference}
    (hr : r ∈ ofText s) : r ∈ ofValue v := by
  induction h with
  | text => exact hr
  | number => exact hr
  | item hitem _ ih => exact mem_ofItems_iff.mpr ⟨_, hitem, ih hr⟩
  | entry hentry _ ih => exact mem_ofEntries_iff.mpr ⟨_, hentry, ih hr⟩

/-- A placeholder of a value stands in one of its texts. -/
theorem exists_holdsText {v : Value} {r : Reference} (h : r ∈ ofValue v) :
    ∃ s, v.HoldsText s ∧ r ∈ ofText s := by
  cases v with
  | text s => exact ⟨s, .text, h⟩
  | number literal => exact ⟨literal, .number, h⟩
  | list items =>
    obtain ⟨item, hitem, hr⟩ := mem_ofItems_iff.mp h
    obtain ⟨s, hs, hmem⟩ := exists_holdsText hr
    exact ⟨s, .item hitem hs, hmem⟩
  | map entries =>
    obtain ⟨entry, hentry, hr⟩ := mem_ofEntries_iff.mp h
    obtain ⟨s, hs, hmem⟩ := exists_holdsText hr
    exact ⟨s, .entry hentry hs, hmem⟩
  | _ => cases h
termination_by sizeOf v
decreasing_by
  · subst_vars
    have := List.sizeOf_lt_of_mem hitem
    simp only [Value.list.sizeOf_spec]
    omega
  · subst_vars
    have := List.sizeOf_lt_of_mem hentry
    obtain ⟨key, value⟩ := entry
    simp only [Value.map.sizeOf_spec, Prod.mk.sizeOf_spec] at *
    omega

theorem mem_ofValue_iff {v : Value} {r : Reference} :
    r ∈ ofValue v ↔ ∃ s, v.HoldsText s ∧ r ∈ ofText s := by
  constructor
  · exact exists_holdsText
  · rintro ⟨s, hs, hr⟩
    exact mem_ofValue_of_holdsText hs hr

/-! ## The placeholders of a token -/

/-- A placeholder that stands in an occurrence of a token is one of the token. -/
theorem OccursAt.mem_ofText_token {token : String} {cs : List Char} {place start : Nat}
    {r : Reference} (h : OccursAt cs start r) (htoken : token.toList <+: cs.drop place)
    (hstart : place ≤ start) (hend : start + r.text.length ≤ place + token.toList.length) :
    r ∈ ofText token := by
  obtain ⟨offset, rfl⟩ := Nat.exists_eq_add_of_le hstart
  have hinside : token.toList.drop offset <+: cs.drop (place + offset) := by
    rw [← List.drop_drop]
    exact htoken.drop offset
  have hfits : r.text.length ≤ (token.toList.drop offset).length := by
    rw [List.length_drop]
    omega
  exact mem_ofText_iff.mpr
    ⟨offset, h.scannable, List.prefix_of_prefix_length_le h.stands hinside hfits⟩

/-- The placeholders of a token are placeholders of the texts in which it occurs. -/
theorem mem_ofText_of_isInfix {token s : String} (htoken : token.toList <:+: s.toList)
    {r : Reference} (h : r ∈ ofText token) : r ∈ ofText s := by
  obtain ⟨before, after, hs⟩ := htoken
  obtain ⟨start, hoccurs⟩ := mem_ofText_iff.mp h
  refine mem_ofText_iff.mpr ⟨before.length + start, hoccurs.scannable, ?_⟩
  rw [← hs, List.append_assoc, ← List.drop_drop, List.drop_left]
  exact hoccurs.stands.trans ((List.prefix_append token.toList after).drop start)

/-- Where placeholders stand in occurrences of a token only, the placeholders are the token's. -/
theorem OnlyWithin.mem_ofText_iff {token s : String} (h : OnlyWithin token s) {r : Reference} :
    r ∈ ofText s ↔ token.toList <:+: s.toList ∧ r ∈ ofText token := by
  constructor
  · intro hr
    obtain ⟨start, hoccurs⟩ := Reference.mem_ofText_iff.mp hr
    obtain ⟨place, htoken, hstart, hend⟩ := h start r hoccurs
    exact ⟨htoken.isInfix.trans (List.drop_suffix place s.toList).isInfix,
      hoccurs.mem_ofText_token htoken hstart hend⟩
  · rintro ⟨htoken, hr⟩
    exact mem_ofText_of_isInfix htoken hr

/-- A token is a text whose placeholders stand in an occurrence of it. -/
theorem onlyWithin_self (token : String) : OnlyWithin token token := by
  intro start r hoccurs
  refine ⟨0, List.prefix_rfl, Nat.zero_le start, ?_⟩
  have hfits : r.text.length ≤ token.toList.length - start := by
    rw [← List.length_drop]
    exact hoccurs.stands.length_le
  have hsome : 0 < r.text.length := Nat.succ_pos _
  omega

/-- A text without a point has no placeholders. -/
theorem ofText_of_point_notMem {s : String} (h : '.' ∉ s.toList) : ofText s = [] := by
  refine List.eq_nil_iff_forall_not_mem.mpr fun r hr => h ?_
  obtain ⟨start, hoccurs⟩ := mem_ofText_iff.mp hr
  exact List.mem_of_mem_drop (hoccurs.stands.subset (by simp [Reference.text]))

end Reference

end Runbook
