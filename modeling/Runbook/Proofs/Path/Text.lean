import Runbook.Path
import Runbook.Proofs.Text.Split

/-!
# Texts of paths

The names on a path that a text denotes are not empty, not a single point, and hold no slash. A path
of such names that is written out is denoted by what is written.

The module introduces `Path.IsPlain`: a path of such names. The main result is `Path.ofText_text`.
-/

namespace Runbook.Path

/-- The names on a path are such as a path keeps, and none of them holds a slash. -/
def IsPlain (p : Path) : Prop :=
  ∀ name ∈ p.parts, isPart name = true ∧ '/' ∉ name.toList

section Plain

variable {p q : Path}

/-- The path that a text denotes is plain. -/
theorem isPlain_ofText (s : String) : (ofText s).IsPlain := by
  intro name hname
  obtain ⟨hmem, hpart⟩ := List.mem_filter.mp hname
  obtain ⟨piece, hpiece, rfl⟩ := List.mem_map.mp hmem
  refine ⟨hpart, fun hslash => ?_⟩
  rw [String.toList_ofList] at hslash
  have huncut := Text.not_cut_of_mem_splitWhere hpiece '/' hslash
  exact absurd huncut (by decide)

theorem IsPlain.parent (h : p.IsPlain) : p.parent.IsPlain :=
  fun name hname => h name (List.dropLast_subset _ hname)

theorem IsPlain.under (hp : p.IsPlain) (hq : q.IsPlain) : (p.under q).IsPlain := by
  unfold Path.under
  split
  · exact hq
  · exact fun name hname => (List.mem_append.mp hname).elim (hp name) (hq name)

end Plain

/-- A path under an absolute path is absolute. -/
theorem isAbsolute_under {p : Path} (h : p.isAbsolute = true) (q : Path) :
    (p.under q).isAbsolute = true := by
  unfold Path.under
  split
  case isTrue hq => exact hq
  case isFalse => exact h

/-! ## The root -/

/-- Behind the characters of a root, a text that begins with no slash leaves the root as it is. -/
theorem rootOf_append {cs : List Char} (h : cs.head? ≠ some '/') (root : Root) :
    rootOf ((rootText root).toList ++ cs) = root := by
  cases cs with
  | nil => cases root <;> rfl
  | cons c cs =>
    have hc : c ≠ '/' := fun heq => h (congrArg some heq)
    cases root <;> simp [rootOf, rootText, hc]

/-- The characters of a root add no names. -/
theorem filter_splitAt_append (root : Root) (s : String) :
    (Text.splitAt '/' (rootText root ++ s)).filter isPart =
      (Text.splitAt '/' s).filter isPart := by
  have hslash (cs : List Char) : Text.splitWhere (· == '/') ('/' :: cs) =
      [] :: Text.splitWhere (· == '/') cs := by
    rw [Text.splitWhere, if_pos (beq_self_eq_true _)]
  unfold Text.splitAt
  rw [String.toList_append]
  cases root with
  | relative => rfl
  | single =>
    change ((Text.splitWhere _ ('/' :: s.toList)).map _).filter _ = _
    rw [hslash]
    rfl
  | double =>
    change ((Text.splitWhere _ ('/' :: '/' :: s.toList)).map _).filter _ = _
    rw [hslash, hslash]
    rfl

/-! ## The names -/

section Names

variable {p : Path}

/-- Joined names begin with no slash. -/
theorem IsPlain.head?_join (h : p.IsPlain) : (Text.join "/" p.parts).toList.head? ≠ some '/' := by
  rw [Text.join, String.toList_ofList]
  cases hparts : p.parts with
  | nil => simp [Text.joinWith]
  | cons name names =>
    obtain ⟨hpart, hslash⟩ := h name (hparts ▸ List.mem_cons_self)
    obtain ⟨c, cs, hname⟩ : ∃ c cs, name.toList = c :: cs := by
      refine List.exists_cons_of_ne_nil fun hnil => ?_
      rw [String.toList_eq_nil_iff.mp hnil] at hpart
      cases hpart
    have hc : c ≠ '/' := fun heq => hslash (hname ▸ heq ▸ List.mem_cons_self)
    cases names with
    | nil => simpa [Text.joinWith, hname] using hc
    | cons next names => simpa [Text.joinWith, hname] using hc

/-- Joined names are found between the slashes. -/
theorem IsPlain.filter_splitAt_join (h : p.IsPlain) :
    (Text.splitAt '/' (Text.join "/" p.parts)).filter isPart = p.parts := by
  cases hparts : p.parts with
  | nil => rfl
  | cons name names =>
    have hsplit : Text.splitAt '/' (Text.join (String.ofList ['/']) p.parts) = p.parts :=
      Text.splitAt_join (hparts ▸ List.cons_ne_nil name names) fun name hname => (h name hname).2
    rw [← hparts]
    exact (congrArg _ hsplit).trans (List.filter_eq_self.mpr fun name hname => (h name hname).1)

/-- A plain path that is written out is denoted by what is written. -/
theorem ofText_text (h : p.IsPlain) : ofText p.text = p := by
  unfold text
  split
  case isTrue hcurrent =>
    -- The current directory is written as a point, which is no name.
    obtain ⟨root, parts⟩ := p
    obtain ⟨rfl, rfl⟩ : root = .relative ∧ parts = [] := hcurrent
    rfl
  case isFalse =>
    have hroot : rootOf (rootText p.root ++ Text.join "/" p.parts).toList = p.root := by
      rw [String.toList_append]
      exact rootOf_append h.head?_join p.root
    rw [ofText, hroot, filter_splitAt_append, h.filter_splitAt_join]

end Names

end Runbook.Path
