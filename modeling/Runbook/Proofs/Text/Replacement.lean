import Mathlib.Data.Nat.Find
import Runbook.Text.Split

/-!
# Replacing a token

A token is replaced where it occurs first, and then wherever it occurs first in what is left behind
that place, so that occurrences which overlap are taken from left to right.

The module introduces:

* `Text.Replaced`: a text with the occurrences of a token replaced, told without searching for them.

The main result is `Text.replaceAll_eq_iff`; `Text.Replaced.filter_eq` says which characters do not
depend on what is put in.
-/

namespace Runbook.Text

/-- A text with the leftmost occurrences of a token that do not overlap replaced. -/
inductive Replaced (token new : List Char) : List Char → List Char → Prop
  /-- A text in which the token does not occur stays as it is. -/
  | rest {cs : List Char} : ¬token <:+: cs → Replaced token new cs cs
  /-- The first occurrence is replaced, and those behind it are. -/
  | first {front rest out : List Char} :
      (∀ before after, front ++ token ++ rest = before ++ token ++ after →
        front.length ≤ before.length) →
      Replaced token new rest out → Replaced token new (front ++ token ++ rest) (front ++ new ++ out)

variable {token new cs : List Char}

/-- Characters that belong to an occurrence are passed over. -/
theorem replaceFrom_eq_drop (skip : Nat) (cs : List Char) :
    replaceFrom token new skip cs = replaceAll token new (cs.drop skip) := by
  induction cs generalizing skip with
  | nil => cases skip <;> rfl
  | cons c cs ih =>
    cases skip with
    | zero => rfl
    | succ skip => exact ih skip

theorem replaceAll_of_not_isInfix (h : ¬token <:+: cs) : replaceAll token new cs = cs := by
  induction cs with
  | nil => rfl
  | cons c cs ih =>
    have hhere : ¬token.isPrefixOf (c :: cs) = true :=
      fun hprefix => h (List.isPrefixOf_iff_prefix.mp hprefix).isInfix
    have htail : ¬token <:+: cs := fun hoccurs => h (hoccurs.trans (List.suffix_cons c cs).isInfix)
    rw [replaceAll, replaceFrom, if_neg hhere]
    exact congrArg (c :: ·) (ih htail)

/-- The first occurrence is replaced, and what is behind it is treated in the same way. -/
theorem replaceAll_append (htoken : token ≠ []) {front rest : List Char}
    (hfirst : ∀ before after, front ++ token ++ rest = before ++ token ++ after →
      front.length ≤ before.length) :
    replaceAll token new (front ++ token ++ rest) = front ++ new ++ replaceAll token new rest := by
  induction front with
  | nil =>
    obtain ⟨c, tail, rfl⟩ := List.exists_cons_of_ne_nil htoken
    have hhere : (c :: tail).isPrefixOf (c :: (tail ++ rest)) = true :=
      List.isPrefixOf_iff_prefix.mpr (List.prefix_append (c :: tail) rest)
    rw [List.nil_append, List.cons_append, replaceAll, replaceFrom, if_pos hhere,
      replaceFrom_eq_drop, List.length_cons, Nat.add_sub_cancel, List.drop_left, List.nil_append]
  | cons c front ih =>
    -- An occurrence at the front would come before the first one.
    have hhere : ¬token.isPrefixOf (c :: (front ++ token ++ rest)) = true := by
      intro hprefix
      obtain ⟨after, hafter⟩ := List.isPrefixOf_iff_prefix.mp hprefix
      exact Nat.not_succ_le_zero _ (hfirst [] after hafter.symm)
    have hrest := ih fun before after heq =>
      Nat.le_of_succ_le_succ (hfirst (c :: before) after (congrArg (c :: ·) heq))
    rw [List.cons_append, List.cons_append, replaceAll, replaceFrom, if_neg hhere]
    exact congrArg (c :: ·) hrest

theorem Replaced.replaceAll_eq {out : List Char} (h : Replaced token new cs out)
    (htoken : token ≠ []) : replaceAll token new cs = out := by
  induction h with
  | rest hnone => exact replaceAll_of_not_isInfix hnone
  | first hfirst _ ih => rw [replaceAll_append htoken hfirst, ih]

/-- A token that occurs has a first occurrence. -/
theorem exists_first (h : token <:+: cs) :
    ∃ front rest, cs = front ++ token ++ rest ∧
      ∀ before after, cs = before ++ token ++ after → front.length ≤ before.length := by
  classical
  have hplaces : ∃ place before after, cs = before ++ token ++ after ∧ before.length = place := by
    obtain ⟨before, after, heq⟩ := h
    exact ⟨before.length, before, after, heq.symm, rfl⟩
  obtain ⟨front, rest, hcs, hlength⟩ := Nat.find_spec hplaces
  refine ⟨front, rest, hcs, fun before after heq => ?_⟩
  rw [hlength]
  exact Nat.find_min' hplaces ⟨before, after, heq, rfl⟩

/-- The occurrences of a token can be replaced in every text. -/
theorem exists_replaced (htoken : token ≠ []) (new cs : List Char) :
    ∃ out, Replaced token new cs out := by
  induction hlength : cs.length using Nat.strong_induction_on generalizing cs with
  | h length ih =>
    by_cases hoccurs : token <:+: cs
    · obtain ⟨front, rest, rfl, hfirst⟩ := exists_first hoccurs
      have hshorter : rest.length < length := by
        have := List.length_pos_iff.mpr htoken
        rw [← hlength, List.length_append, List.length_append]
        omega
      obtain ⟨out, hout⟩ := ih rest.length hshorter rest rfl
      exact ⟨front ++ new ++ out, .first hfirst hout⟩
    · exact ⟨cs, .rest hoccurs⟩

/-- Replacing a token replaces its leftmost occurrences that do not overlap, and nothing else. -/
theorem replaceAll_eq_iff (htoken : token ≠ []) {out : List Char} :
    replaceAll token new cs = out ↔ Replaced token new cs out := by
  constructor
  · rintro rfl
    obtain ⟨out, hout⟩ := exists_replaced htoken new cs
    rwa [hout.replaceAll_eq htoken]
  · exact fun h => h.replaceAll_eq htoken

/-! ## Outside the token -/

section Outside

variable {p : Char → Bool} (hnew : ∀ c ∈ new, p c = false)

include hnew

/-- Characters of a kind that what is put in does not have are those that are left if nothing is put
in. -/
theorem filter_replaceFrom (skip : Nat) (cs : List Char) :
    (replaceFrom token new skip cs).filter p = (replaceFrom token [] skip cs).filter p := by
  have hnone : new.filter p = [] :=
    List.filter_eq_nil_iff.mpr fun c hc => by simp [hnew c hc]
  induction cs generalizing skip with
  | nil => cases skip <;> rfl
  | cons c cs ih =>
    cases skip with
    | succ skip => exact ih skip
    | zero =>
      rw [replaceFrom, replaceFrom]
      split
      · rw [List.filter_append, hnone, ih]
        rfl
      · rw [List.filter_cons, List.filter_cons, ih]

/-- Replacing a token keeps the characters outside it that are of a kind which what is put in does
not have, and adds none of them. -/
theorem Replaced.filter_eq (htoken : token ≠ []) {out outside : List Char}
    (h : Replaced token new cs out) (houtside : Replaced token [] cs outside) :
    out.filter p = outside.filter p := by
  rw [← h.replaceAll_eq htoken, ← houtside.replaceAll_eq htoken]
  exact filter_replaceFrom hnew 0 cs

end Outside

end Runbook.Text
