import Mathlib.Order.Nat
import Runbook.Proofs.Expression.Token

/-!
# Full expansion

The full expansion of a text replaces each token that names a variable with a text by the full
expansion of that text, without counting levels. Some texts have none, as when a variable refers to
itself; but if the variables of a table can be ranked so that each refers to lower ones only, every
text has one, and it is what the text is resolved to at every depth that is larger than the number
of variables.

The module introduces:

* `Expression.Expands`, `Expression.IsExpansion`: the full expansion of pieces and of a text;
* `Expression.IsRanked`: variables refer to variables of lower rank only;
* `Expression.below`: the number of variables of lower rank, which bounds the levels of an
  expansion.

The main result is `Expression.resolve_of_isRanked`.
-/

namespace Runbook.Expression

/-- The full expansion of the pieces of a text. -/
inductive Expands (table : Table) : List Piece → List Char → Prop
  | nil : Expands table [] []
  | char {c : Char} {ps : List Piece} {out : List Char} :
      Expands table ps out → Expands table (.char c :: ps) (c :: out)
  /-- A token that names a variable with a text is replaced by the full expansion of the text. -/
  | replaced {reference first out : List Char} {entry : String × String} {inner ps : List Piece} :
      Names table reference entry → entry.2 ≠ "" → Consists entry.2.toList inner →
      Expands table inner first → Expands table ps out →
      Expands table (.token reference :: ps) (first ++ out)
  /-- A token in the system's scope is replaced by its marker. -/
  | marked {reference out : List Char} {ps : List Piece} :
      systemScope <+: reference → Expands table ps out →
      Expands table (.token reference :: ps) (systemMarker reference ++ out)
  /-- Every other token stays as it is. -/
  | kept {reference out : List Char} {ps : List Piece} :
      ¬systemScope <+: reference → (∀ entry, Names table reference entry → entry.2 = "") →
      Expands table ps out →
      Expands table (.token reference :: ps) ((Piece.token reference).text ++ out)

/-- The full expansion of a text. -/
def IsExpansion (table : Table) (cs out : List Char) : Prop :=
  ∃ ps, Consists cs ps ∧ Expands table ps out

/-- Variables are ranked so that each of them refers to lower ones only. -/
def IsRanked {α : Type*} [Preorder α] (table : Table) (rank : String × String → α) : Prop :=
  ∀ entry ∈ table, ∀ ps, Consists entry.2.toList ps → ∀ reference target,
    Piece.token reference ∈ ps → Names table reference target → rank target < rank entry

/-- What a piece of a text becomes if its replacement is expanded to a depth. -/
def Piece.expanded (table : Table) (depth : Nat) : Piece → List Char
  | .char c => [c]
  | .token reference =>
    match replacement? table reference with
    | some text => expand table depth text
    | none => (Piece.token reference).text

variable {table : Table} {reference cs out : List Char} {ps : List Piece} {depth : Nat}

/-! ## There is one full expansion at most -/

theorem Expands.unique {out' : List Char} (h : Expands table ps out) (h' : Expands table ps out') :
    out = out' := by
  induction h generalizing out' with
  | nil =>
    cases h'
    rfl
  | char _ ih =>
    obtain - | hrest := h'
    rw [ih hrest]
  | replaced hnames hsome hconsists _ _ ihfirst ihrest =>
    obtain - | - | ⟨hnames', -, hconsists', hfirst, hrest⟩ | ⟨hsystem, -⟩ | ⟨-, hempty, -⟩ := h'
    · cases hnames.unique hnames'
      cases hconsists.unique hconsists'
      rw [ihfirst hfirst, ihrest hrest]
    · exact absurd hsystem hnames.not_systemScope
    · exact absurd (hempty _ hnames) hsome
  | marked hsystem _ ih =>
    obtain - | - | ⟨hnames, -, -, -, -⟩ | ⟨-, hrest⟩ | ⟨hscope, -, -⟩ := h'
    · exact absurd hsystem hnames.not_systemScope
    · rw [ih hrest]
    · exact absurd hsystem hscope
  | kept hscope hempty _ ih =>
    obtain - | - | ⟨hnames, hsome, -, -, -⟩ | ⟨hsystem, -⟩ | ⟨-, -, hrest⟩ := h'
    · exact absurd (hempty _ hnames) hsome
    · exact absurd hsystem hscope
    · rw [ih hrest]

theorem IsExpansion.unique {out' : List Char} (h : IsExpansion table cs out)
    (h' : IsExpansion table cs out') : out = out' := by
  obtain ⟨ps, hps, hexpands⟩ := h
  obtain ⟨ps', hps', hexpands'⟩ := h'
  cases hps.unique hps'
  exact hexpands.unique hexpands'

/-! ## One level of expansion -/

theorem expand_succ (table : Table) (depth : Nat) (cs : List Char) :
    expand table (depth + 1) cs = (pieces cs).flatMap (Piece.expanded table depth) := by
  rw [expand]
  refine congrArg (fun f => (pieces cs).flatMap f) (funext fun piece => ?_)
  cases piece <;> rfl

theorem expand_of_bracket_notMem (h : ']' ∉ cs) : expand table depth cs = cs := by
  cases depth with
  | zero => exact expand_zero table cs
  | succ depth =>
    rw [expand_succ, pieces_of_bracket_notMem h, List.flatMap_map]
    simp [Piece.expanded]

theorem bracket_notMem_systemMarker (h : ']' ∉ reference) : ']' ∉ systemMarker reference := by
  have hfront : ']' ∉ "<System variable: ".toList := by decide
  unfold systemMarker
  rw [List.mem_append, List.mem_append]
  exact not_or.mpr ⟨not_or.mpr ⟨hfront, h⟩, by decide⟩

/-- Pieces are expanded to the full if the texts of the variables that they name are. -/
theorem expands_flatMap
    (hreference : ∀ reference, Piece.token reference ∈ ps → IsReference reference)
    (hexpands : ∀ reference entry, Piece.token reference ∈ ps → Names table reference entry →
      IsExpansion table entry.2.toList (expand table depth entry.2.toList)) :
    Expands table ps (ps.flatMap (Piece.expanded table depth)) := by
  induction ps with
  | nil => exact .nil
  | cons piece ps ih =>
    have hrest := ih (fun reference hmem => hreference reference (List.mem_cons_of_mem _ hmem))
      fun reference entry hmem => hexpands reference entry (List.mem_cons_of_mem _ hmem)
    rw [List.flatMap_cons]
    cases piece with
    | char c => exact .char hrest
    | token reference =>
      rw [Piece.expanded]
      by_cases hsystem : systemScope <+: reference
      · -- The marker holds no token, so that it stays as it is at every depth.
        have hmarker : ']' ∉ systemMarker reference :=
          bracket_notMem_systemMarker (hreference reference List.mem_cons_self).bracket_notMem
        rw [replacement?_of_systemScope hsystem]
        simp only [expand_of_bracket_notMem hmarker]
        exact .marked hsystem hrest
      · by_cases hnamed : ∃ entry, Names table reference entry ∧ entry.2 ≠ ""
        · obtain ⟨entry, hnames, hsome⟩ := hnamed
          obtain ⟨inner, hinner, hfirst⟩ := hexpands reference entry List.mem_cons_self hnames
          rw [replacement?_of_names hnames hsome]
          exact .replaced hnames hsome hinner hfirst hrest
        · have hempty (entry : String × String) (hnames : Names table reference entry) :
              entry.2 = "" := by
            by_contra hsome
            exact hnamed ⟨entry, hnames, hsome⟩
          rw [replacement?_eq_none hsystem hempty]
          exact .kept hsystem hempty hrest

/-- One more level expands a text to the full if the texts of the variables that it names are
expanded to the full. -/
theorem isExpansion_expand_succ
    (h : ∀ reference entry, Piece.token reference ∈ pieces cs → Names table reference entry →
      IsExpansion table entry.2.toList (expand table depth entry.2.toList)) :
    IsExpansion table cs (expand table (depth + 1) cs) := by
  have hconsists : Consists cs (pieces cs) := pieces_eq_iff.mp rfl
  rw [expand_succ]
  exact ⟨pieces cs, hconsists, expands_flatMap (fun _ => hconsists.isReference) h⟩

/-! ## Ranked variables -/

section Rank

variable {α : Type*} [Preorder α] {rank : String × String → α} {entry : String × String}

open Classical in
/-- The number of variables of lower rank. -/
noncomputable def below (table : Table) (rank : String × String → α) (entry : String × String) :
    Nat :=
  (table.filter fun other => rank other < rank entry).length

/-- There are fewer variables below a variable of lower rank. -/
theorem below_lt_below {target : String × String} (hmem : target ∈ table)
    (hlt : rank target < rank entry) : below table rank target < below table rank entry := by
  classical
  -- What is below the target is below the entry, too, and so is the target itself.
  have hfilter : (table.filter fun other => rank other < rank target) =
      (table.filter fun other => rank other < rank entry).filter
        fun other => rank other < rank target := by
    rw [List.filter_filter]
    refine List.filter_congr fun other _ => ?_
    by_cases hother : rank other < rank target
    · simp [hother, hother.trans hlt]
    · simp [hother]
  rw [below, below, hfilter, List.length_filter_lt_length_iff_exists]
  exact ⟨target, List.mem_filter.mpr ⟨hmem, by simpa using hlt⟩, by simp⟩

/-- A variable is not below itself. -/
theorem below_lt_length (hmem : entry ∈ table) : below table rank entry < table.length := by
  classical
  rw [below, List.length_filter_lt_length_iff_exists]
  exact ⟨entry, hmem, by simp⟩

/-- The text of a variable is expanded to the full at every depth that is larger than the number of
variables below it. -/
theorem isExpansion_of_below_lt (hrank : IsRanked table rank) (hmem : entry ∈ table)
    (hdepth : below table rank entry < depth) :
    IsExpansion table entry.2.toList (expand table depth entry.2.toList) := by
  -- A level of depth is spent on each variable on the way down, which has fewer below it.
  induction depth generalizing entry with
  | zero => exact absurd hdepth (Nat.not_lt_zero _)
  | succ depth ih =>
    refine isExpansion_expand_succ fun reference target htoken hnames => ?_
    have hlower := hrank entry hmem _ (pieces_eq_iff.mp rfl) reference target htoken hnames
    have hbelow := below_lt_below hnames.mem hlower
    exact ih hnames.mem (by omega)

/-- A text is expanded to the full at every depth that is larger than the number of variables. -/
theorem isExpansion_of_length_lt (hrank : IsRanked table rank) (cs : List Char)
    (hdepth : table.length < depth) : IsExpansion table cs (expand table depth cs) := by
  obtain ⟨levels, rfl⟩ := Nat.exists_eq_add_of_lt hdepth
  refine isExpansion_expand_succ fun reference target _ hnames => ?_
  have hbelow : below table rank target < table.length := below_lt_length hnames.mem
  exact isExpansion_of_below_lt hrank hnames.mem (by omega)

/-- If the variables of a table are ranked so that each of them refers to lower ones only, every
text has one full expansion, and this is what it is resolved to at all depths that are larger than
the number of variables. -/
theorem resolve_of_isRanked (hrank : IsRanked table rank) (text : String) :
    ∃ out, (∀ depth : Int, table.length + 1 ≤ depth → resolve table depth text = out) ∧
      ∀ full, IsExpansion table text.toList full ↔ full = out.toList := by
  have hfull := isExpansion_of_length_lt hrank text.toList (Nat.lt_succ_self table.length)
  refine ⟨String.ofList (expand table (table.length + 1) text.toList), fun depth hdepth => ?_,
    fun full => ?_⟩
  · have hdeep : table.length < depth.toNat := by omega
    rw [resolve, (isExpansion_of_length_lt hrank text.toList hdeep).unique hfull]
  · rw [String.toList_ofList]
    constructor
    · exact fun h => h.unique hfull
    · rintro rfl
      exact hfull

end Rank

/-- A directory below another one is resolved to its full path at every depth of at least three. -/
theorem resolve_of_isRanked_directory :
    IsRanked [("Full", "@[User::Dir]/in"), ("Dir", "C:")]
        (fun entry => if entry.1 = "Full" then 1 else 0) ∧
      ∀ depth : Int, 3 ≤ depth →
        resolve [("Full", "@[User::Dir]/in"), ("Dir", "C:")] depth "to @[User::Full]" =
          "to C:/in" := by
  have hranked : IsRanked [("Full", "@[User::Dir]/in"), ("Dir", "C:")]
      (fun entry => if entry.1 = "Full" then 1 else 0) := by
    intro entry hentry ps hps reference target htoken hnames
    rw [← hps.pieces_eq] at htoken
    rcases List.mem_cons.mp hentry with rfl | hdir
    · have hpieces : pieces "@[User::Dir]/in".toList =
          [.token "User::Dir".toList, .char '/', .char 'i', .char 'n'] := by decide +kernel
      change Piece.token reference ∈ pieces "@[User::Dir]/in".toList at htoken
      have hreference : reference = "User::Dir".toList := by
        rw [hpieces] at htoken
        simpa only [List.mem_cons, List.not_mem_nil, Piece.token.injEq, reduceCtorEq, or_false]
          using htoken
      have hdir : entry? [("Full", "@[User::Dir]/in"), ("Dir", "C:")] reference =
          some ("Dir", "C:") := by rw [hreference]; decide +kernel
      cases (names_iff.mp hnames).2.symm.trans hdir
      decide
    · cases List.mem_singleton.mp hdir
      have hpieces : pieces "C:".toList = [.char 'C', .char ':'] := by decide +kernel
      change Piece.token reference ∈ pieces "C:".toList at htoken
      rw [hpieces] at htoken
      simp at htoken
  obtain ⟨out, hout, -⟩ := resolve_of_isRanked hranked "to @[User::Full]"
  refine ⟨hranked, fun depth hdepth => ?_⟩
  rw [hout depth hdepth, ← hout 3 (Int.le_refl 3)]
  decide +kernel

end Runbook.Expression
