import Runbook.Proofs.Text.Split
import Runbook.ShortName

/-!
# What a short name is

The short name of a file or an item is its last segment that is not empty, or nothing if there is
none, without the extension; a segment has an extension if there is a point in it with something
other than points before.

The module introduces:

* `ShortName.IsLastSegment`, `ShortName.IsStem`: the last segment of a text, and a segment without
  its extension, told without cutting;
* `ShortName.IsShortName`: both of them together;
* `ShortName.separators`: the separators of a text.

The main result is `ShortName.of_eq_iff`. It follows that a short name holds no separator, and when
it is empty.
-/

namespace Runbook.ShortName

/-- The last segment of a text that is not empty, or nothing if there is none. -/
inductive IsLastSegment : List Char → List Char → Prop
  | none {cs : List Char} : (∀ c ∈ cs, isSeparator c = true) → IsLastSegment cs []
  | last {front segment back : List Char} :
      (∀ c ∈ front.getLast?, isSeparator c = true) → segment ≠ [] →
      (∀ c ∈ segment, isSeparator c = false) → (∀ c ∈ back, isSeparator c = true) →
      IsLastSegment (front ++ segment ++ back) segment

/-- A segment without its extension. The extension begins at the last point, and there is none
unless something other than points stands before it. -/
inductive IsStem : List Char → List Char → Prop
  | cut {stem extension : List Char} :
      '.' ∉ extension → (∃ c ∈ stem, c ≠ '.') → IsStem (stem ++ '.' :: extension) stem
  | whole {segment : List Char} :
      (∀ stem extension, segment = stem ++ '.' :: extension → '.' ∉ extension →
        ∀ c ∈ stem, c = '.') →
      IsStem segment segment

/-- The short name of a text: its last segment without the extension. -/
def IsShortName (s name : String) : Prop :=
  ∃ segment, IsLastSegment s.toList segment ∧ IsStem segment name.toList

/-! ## The last segment -/

section Segment

variable {cs segment : List Char}

theorem IsLastSegment.lastSegment_eq (h : IsLastSegment cs segment) : lastSegment cs = segment := by
  cases h with
  | none hall =>
    have hdrop : Text.dropEnd isSeparator ([] ++ cs) = [] := Text.dropEnd_append (by simp) hall
    rw [lastSegment, ← List.nil_append cs, hdrop]
    rfl
  | last hfront hsome hsegment hback =>
    have hlast := fun c (hc : c ∈ segment.getLast?) => hsegment c (List.mem_of_getLast? hc)
    rw [← List.getLast?_append_of_ne_nil _ hsome] at hlast
    rw [lastSegment, Text.dropEnd_append hlast hback, Text.getLast?_splitWhere hfront hsegment]
    rfl

/-- Every text has a last segment. -/
theorem exists_isLastSegment (cs : List Char) : ∃ segment, IsLastSegment cs segment := by
  obtain ⟨kept, back, rfl, hkept, hback⟩ := Text.exists_append_end isSeparator cs
  obtain ⟨front, segment, rfl, hfront, hsegment⟩ := Text.exists_append_end (!isSeparator ·) kept
  simp only [Bool.not_eq_false'] at hfront
  simp only [Bool.not_eq_true'] at hsegment
  by_cases hsome : segment = []
  · -- Then nothing is left without the separators at the end.
    subst hsome
    rcases List.eq_nil_or_concat' front with rfl | ⟨before, mark, rfl⟩
    · exact ⟨[], .none (by simpa using hback)⟩
    · have hmark := hfront mark (by simp)
      rw [hkept mark (by simp)] at hmark
      cases hmark
  · exact ⟨segment, .last hfront hsome hsegment hback⟩

theorem lastSegment_eq_iff : lastSegment cs = segment ↔ IsLastSegment cs segment := by
  constructor
  · rintro rfl
    obtain ⟨segment, hsegment⟩ := exists_isLastSegment cs
    rwa [hsegment.lastSegment_eq]
  · exact IsLastSegment.lastSegment_eq

end Segment

/-! ## The extension -/

section Stem

variable {segment stem : List Char}

/-- A text with a point has a last one. -/
theorem exists_lastPoint (h : '.' ∈ segment) :
    ∃ stem extension, segment = stem ++ '.' :: extension ∧ '.' ∉ extension := by
  obtain ⟨before, after, hreverse, hnone⟩ :=
    List.eq_append_cons_of_mem (List.mem_reverse.mpr h)
  refine ⟨after.reverse, before.reverse, ?_, mt List.mem_reverse.mp hnone⟩
  rw [← List.reverse_reverse segment, hreverse]
  simp

theorem beforeLastPoint_append {extension : List Char} (h : '.' ∉ extension) :
    beforeLastPoint (stem ++ '.' :: extension) = stem := by
  have hreversed : ∀ c ∈ extension.reverse, (c != '.') = true := by
    intro c hc
    exact bne_iff_ne.mpr fun heq => h (heq ▸ List.mem_reverse.mp hc)
  rw [beforeLastPoint, List.reverse_append, List.reverse_cons, List.append_assoc,
    List.dropWhile_append_of_pos hreversed]
  simp

theorem beforeLastPoint_of_notMem (h : '.' ∉ segment) : beforeLastPoint segment = [] := by
  have hreversed : ∀ c ∈ segment.reverse, (c != '.') = true := by
    intro c hc
    exact bne_iff_ne.mpr fun heq => h (heq ▸ List.mem_reverse.mp hc)
  rw [beforeLastPoint, ← List.append_nil segment.reverse,
    List.dropWhile_append_of_pos hreversed]
  rfl

theorem IsStem.withoutExtension_eq (h : IsStem segment stem) : withoutExtension segment = stem := by
  cases h with
  | cut hextension hother =>
    obtain ⟨c, hc, hne⟩ := hother
    have hall : ¬stem.all (· == '.') = true := by
      rw [List.all_eq_true]
      exact fun hpoints => hne (beq_iff_eq.mp (hpoints c hc))
    rw [withoutExtension, beforeLastPoint_append hextension, if_neg hall]
  | whole hpoints =>
    have hall : (beforeLastPoint segment).all (· == '.') = true := by
      by_cases hpoint : '.' ∈ segment
      · obtain ⟨stem, extension, hsegment, hextension⟩ := exists_lastPoint hpoint
        rw [hsegment, beforeLastPoint_append hextension, List.all_eq_true]
        exact fun c hc => beq_iff_eq.mpr (hpoints stem extension hsegment hextension c hc)
      · rw [beforeLastPoint_of_notMem hpoint]
        rfl
    rw [withoutExtension, if_pos hall]

/-- Every segment has a stem. -/
theorem exists_isStem (segment : List Char) : ∃ stem, IsStem segment stem := by
  by_cases hcut : ∃ stem extension, segment = stem ++ '.' :: extension ∧ '.' ∉ extension ∧
      ∃ c ∈ stem, c ≠ '.'
  · obtain ⟨stem, extension, rfl, hextension, hother⟩ := hcut
    exact ⟨stem, .cut hextension hother⟩
  · refine ⟨segment, .whole fun stem extension hsegment hextension c hc => ?_⟩
    by_contra hne
    exact hcut ⟨stem, extension, hsegment, hextension, c, hc, hne⟩

theorem withoutExtension_eq_iff : withoutExtension segment = stem ↔ IsStem segment stem := by
  constructor
  · rintro rfl
    obtain ⟨stem, hstem⟩ := exists_isStem segment
    rwa [hstem.withoutExtension_eq]
  · exact IsStem.withoutExtension_eq

end Stem

/-- The short name of a text is its last segment without the extension, and nothing else. -/
theorem of_eq_iff {s name : String} : of s = name ↔ IsShortName s name := by
  simp only [IsShortName, ← lastSegment_eq_iff, ← withoutExtension_eq_iff, exists_eq_left', of,
    ← String.toList_inj, String.toList_ofList]

/-! ## Separators -/

/-- The separators of a text, in their order. -/
def separators (cs : List Char) : List Char :=
  cs.filter isSeparator

theorem IsLastSegment.not_isSeparator {cs segment : List Char} (h : IsLastSegment cs segment) :
    ∀ c ∈ segment, isSeparator c = false := by
  cases h with
  | none => exact fun c hc => by cases hc
  | last _ _ hsegment _ => exact hsegment

/-- Only a text of nothing but separators has no segment. -/
theorem IsLastSegment.isSeparator_of_nil {cs : List Char} (h : IsLastSegment cs []) :
    ∀ c ∈ cs, isSeparator c = true := by
  cases h with
  | none hall => exact hall
  | last _ hsome => exact absurd rfl hsome

/-- Something stands before every extension. -/
theorem IsStem.eq_nil {segment : List Char} (h : IsStem segment []) : segment = [] := by
  cases h with
  | cut _ hother =>
    obtain ⟨c, hc, -⟩ := hother
    cases hc
  | whole => rfl

/-- A short name holds no separator. -/
theorem not_isSeparator_of_mem_of {s : String} : ∀ c ∈ (of s).toList, isSeparator c = false := by
  rw [of, String.toList_ofList]
  exact not_isSeparator_of_mem_withoutExtension (lastSegment_eq_iff.mp rfl).not_isSeparator

/-- Only a text of nothing but separators has no short name. -/
theorem of_eq_empty_iff {s : String} : of s = "" ↔ ∀ c ∈ s.toList, isSeparator c = true := by
  rw [of_eq_iff]
  constructor
  · rintro ⟨segment, hsegment, hstem⟩
    obtain rfl := hstem.eq_nil
    exact hsegment.isSeparator_of_nil
  · intro hall
    exact ⟨[], .none hall, .whole fun stem extension h => by simp at h⟩

end Runbook.ShortName
