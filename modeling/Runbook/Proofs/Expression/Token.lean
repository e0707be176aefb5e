import Mathlib.Data.List.Basic
import Runbook.Expression

/-!
# The tokens of a text and what they name

A text consists of tokens and of characters that belong to none, and a token is taken wherever one
begins that is not inside a token before it; what a token refers to goes up to the first closing
bracket, so that it may hold the beginning of another one. A reference in the user's scope names the
variable of the bare name, or else the one of the scoped name; every other reference outside of the
system's scope names the variable of that name.

The module introduces:

* `Expression.IsReference`: what can stand between the brackets of a token;
* `Expression.Consists`: the pieces that a text consists of, told without a scanner;
* `Expression.IsFirst`, `Expression.Names`: the variable that counts under a name, and the one that
  a reference names.

The main results are `Expression.pieces_eq_iff` and `Expression.names_iff`.
-/

namespace Runbook.Expression

/-- What stands between the brackets of a token. -/
structure IsReference (reference : List Char) : Prop where
  /-- Something stands there. -/
  ne_nil : reference ≠ []
  /-- The first closing bracket ends it. -/
  bracket_notMem : ']' ∉ reference

/-- The pieces that a text consists of, from left to right. -/
inductive Consists : List Char → List Piece → Prop
  | nil : Consists [] []
  | token {reference rest : List Char} {pieces : List Piece} :
      IsReference reference → Consists rest pieces →
      Consists ((Piece.token reference).text ++ rest) (.token reference :: pieces)
  | char {c : Char} {rest : List Char} {pieces : List Piece} :
      (∀ reference, IsReference reference → ¬(Piece.token reference).text <+: c :: rest) →
      Consists rest pieces → Consists (c :: rest) (.char c :: pieces)

/-- The variable that counts under a name: the first one of that name. -/
def IsFirst (table : Table) (name : List Char) (entry : String × String) : Prop :=
  entry.1.toList = name ∧ ∃ before after, table = before ++ entry :: after ∧
    ∀ other ∈ before, other.1.toList ≠ name

/-- The variable that a reference names. What the system knows is no variable. -/
inductive Names (table : Table) : List Char → String × String → Prop
  | bareName {name : List Char} {entry : String × String} :
      IsFirst table name entry → Names table (userScope ++ name) entry
  | scopedName {name : List Char} {entry : String × String} :
      (∀ other, ¬IsFirst table name other) → IsFirst table (userScope ++ name) entry →
      Names table (userScope ++ name) entry
  | plain {name : List Char} {entry : String × String} :
      ¬userScope <+: name → ¬systemScope <+: name → IsFirst table name entry →
      Names table name entry

/-! ## The pieces of a text -/

section Pieces

variable {cs reference rest : List Char} {ps : List Piece}

theorem tokenAt?_text_append (h : IsReference reference) (rest : List Char) :
    tokenAt? ((Piece.token reference).text ++ rest) = some reference := by
  have htext : (Piece.token reference).text ++ rest = '@' :: '[' :: (reference ++ ']' :: rest) := by
    simp [Piece.text]
  have hclosed : ∀ c ∈ reference, (c != ']') = true :=
    fun c hc => bne_iff_ne.mpr fun heq => h.bracket_notMem (heq ▸ hc)
  have htake : (reference ++ ']' :: rest).takeWhile (· != ']') = reference := by
    rw [List.takeWhile_append_of_pos hclosed]
    simp
  rw [htext, tokenAt?, htake]
  simp [h.ne_nil]

theorem tokenAt?_eq_some_iff :
    tokenAt? cs = some reference ↔ IsReference reference ∧ (Piece.token reference).text <+: cs := by
  constructor
  · intro h
    unfold tokenAt? at h
    split at h
    · rename_i body
      dsimp only at h
      split at h
      · cases h
      · rename_i hsome
        obtain rfl := Option.some.inj h
        have hbody := List.takeWhile_append_dropWhile (p := (· != ']')) (l := body)
        have hdrop := (congrArg (List.drop _) hbody).symm.trans List.drop_left
        obtain ⟨hne, hbehind⟩ : body.takeWhile (· != ']') ≠ [] ∧ body.dropWhile (· != ']') ≠ [] := by
          rw [hdrop] at hsome
          simpa using hsome
        -- What comes behind the characters that are no closing bracket begins with one.
        obtain ⟨mark, rest, hmark⟩ := List.exists_cons_of_ne_nil hbehind
        have hhead := List.head?_dropWhile_not (· != ']') body
        rw [hmark, List.head?_cons] at hhead
        obtain rfl : mark = ']' := by simpa using hhead
        refine ⟨⟨hne, fun hmem => ?_⟩, rest, ?_⟩
        · simpa using List.all_eq_true.mp List.all_takeWhile _ hmem
        · rw [hmark] at hbody
          simp [Piece.text, hbody]
    · cases h
  · rintro ⟨hreference, rest, rfl⟩
    exact tokenAt?_text_append hreference rest

/-- Characters that belong to a token are passed over. -/
theorem piecesFrom_eq_drop (skip : Nat) (cs : List Char) :
    piecesFrom skip cs = pieces (cs.drop skip) := by
  induction cs generalizing skip with
  | nil => cases skip <;> rfl
  | cons c cs ih =>
    cases skip with
    | zero => rfl
    | succ skip => exact ih skip

theorem pieces_text_append (h : IsReference reference) (rest : List Char) :
    pieces ((Piece.token reference).text ++ rest) = .token reference :: pieces rest := by
  have htext : (Piece.token reference).text ++ rest =
      '@' :: (('[' :: reference ++ [']']) ++ rest) := by
    simp [Piece.text]
  have hlength : reference.length + 2 = ('[' :: reference ++ [']']).length := by simp
  have htoken := tokenAt?_text_append h rest
  rw [htext] at htoken ⊢
  rw [pieces, piecesFrom, htoken]
  simp only [piecesFrom_eq_drop, hlength, List.drop_left]

theorem pieces_cons_of_char {c : Char}
    (h : ∀ reference, IsReference reference → ¬(Piece.token reference).text <+: c :: rest) :
    pieces (c :: rest) = .char c :: pieces rest := by
  have hnone : tokenAt? (c :: rest) = none := by
    refine Option.eq_none_iff_forall_ne_some.mpr fun reference hsome => ?_
    obtain ⟨hreference, hstands⟩ := tokenAt?_eq_some_iff.mp hsome
    exact h reference hreference hstands
  rw [pieces, piecesFrom, hnone]
  rfl

theorem Consists.pieces_eq (h : Consists cs ps) : pieces cs = ps := by
  induction h with
  | nil => rfl
  | token hreference _ ih => rw [pieces_text_append hreference, ih]
  | char hnone _ ih => rw [pieces_cons_of_char hnone, ih]

/-- Every text consists of pieces. -/
theorem exists_consists (cs : List Char) : ∃ ps, Consists cs ps := by
  induction hlength : cs.length using Nat.strongRecOn generalizing cs with
  | ind length ih =>
    cases cs with
    | nil => exact ⟨[], .nil⟩
    | cons c rest =>
      by_cases htoken : ∃ reference, IsReference reference ∧
          (Piece.token reference).text <+: c :: rest
      · obtain ⟨reference, hreference, behind, hbehind⟩ := htoken
        rw [← hbehind] at hlength ⊢
        have hshorter : behind.length < length := by
          rw [← hlength, List.length_append]
          exact Nat.lt_add_of_pos_left (Nat.succ_pos _)
        obtain ⟨ps, hps⟩ := ih behind.length hshorter behind rfl
        exact ⟨_, .token hreference hps⟩
      · obtain ⟨ps, hps⟩ := ih rest.length (hlength ▸ Nat.lt_succ_self _) rest rfl
        refine ⟨_, .char (fun reference hreference hstands => ?_) hps⟩
        exact htoken ⟨reference, hreference, hstands⟩

/-- The scanner finds the pieces that a text consists of. -/
theorem pieces_eq_iff : pieces cs = ps ↔ Consists cs ps := by
  constructor
  · rintro rfl
    obtain ⟨ps, hps⟩ := exists_consists cs
    rwa [hps.pieces_eq]
  · exact Consists.pieces_eq

theorem Consists.unique {ps' : List Piece} (h : Consists cs ps) (h' : Consists cs ps') :
    ps = ps' := by
  rw [← h.pieces_eq, h'.pieces_eq]

theorem Consists.isReference (h : Consists cs ps) (hmem : Piece.token reference ∈ ps) :
    IsReference reference := by
  induction h with
  | nil => cases hmem
  | token hreference _ ih =>
    rcases List.mem_cons.mp hmem with heq | hrest
    · cases heq
      exact hreference
    · exact ih hrest
  | char _ _ ih =>
    rcases List.mem_cons.mp hmem with heq | hrest
    · cases heq
    · exact ih hrest

/-- A text without closing brackets has no tokens. -/
theorem pieces_of_bracket_notMem (h : ']' ∉ cs) : pieces cs = cs.map Piece.char := by
  induction cs with
  | nil => rfl
  | cons c rest ih =>
    rw [pieces_cons_of_char, ih (List.not_mem_of_not_mem_cons h)]
    · rfl
    · rintro reference - hstands
      exact h (hstands.subset (by simp [Piece.text]))

end Pieces

/-! ## The variables that references name -/

section Names

variable {table : Table} {name reference : List Char} {entry : String × String}

theorem find?_eq_some_iff_isFirst :
    (table.find? fun (n, _) => n == String.ofList name) = some entry ↔ IsFirst table name entry := by
  have hname (s : String) : s.toList = name ↔ s = String.ofList name := by
    rw [← String.toList_inj, String.toList_ofList]
  rw [List.find?_eq_some_iff_append, IsFirst, hname, beq_iff_eq]
  simp only [Bool.not_eq_true', beq_eq_false_iff_ne, ne_eq, hname]

theorem find?_eq_none_iff_isFirst :
    (table.find? fun (n, _) => n == String.ofList name) = none ↔
      ∀ entry, ¬IsFirst table name entry := by
  simp only [← find?_eq_some_iff_isFirst, Option.eq_none_iff_forall_ne_some, ne_eq]

theorem IsFirst.mem (h : IsFirst table name entry) : entry ∈ table := by
  obtain ⟨-, before, after, rfl, -⟩ := h
  simp

/-- A reference in the user's scope is not in the system's. -/
theorem not_systemScope_prefix_userScope (name : List Char) :
    ¬systemScope <+: userScope ++ name := by
  rintro ⟨rest, hrest⟩
  cases hrest

theorem Names.mem (h : Names table reference entry) : entry ∈ table := by
  cases h with
  | bareName hfirst => exact hfirst.mem
  | scopedName _ hfirst => exact hfirst.mem
  | plain _ _ hfirst => exact hfirst.mem

theorem Names.not_systemScope (h : Names table reference entry) :
    ¬systemScope <+: reference := by
  cases h with
  | bareName => exact not_systemScope_prefix_userScope _
  | scopedName => exact not_systemScope_prefix_userScope _
  | plain _ hsystem => exact hsystem

/-- Looking a reference up gives the variable that it names. -/
theorem names_iff :
    Names table reference entry ↔
      ¬systemScope <+: reference ∧ entry? table reference = some entry := by
  unfold entry?
  by_cases huser : userScope <+: reference
  · obtain ⟨name, rfl⟩ := huser
    have hscope : userScope.isPrefixOf (userScope ++ name) = true :=
      List.isPrefixOf_iff_prefix.mpr (List.prefix_append userScope name)
    rw [if_pos hscope, List.drop_left, Option.or_eq_some_iff, find?_eq_some_iff_isFirst,
      find?_eq_some_iff_isFirst, find?_eq_none_iff_isFirst]
    constructor
    · intro h
      refine ⟨h.not_systemScope, ?_⟩
      generalize hreference : userScope ++ name = reference at h
      cases h with
      | bareName hfirst =>
        rw [List.append_cancel_left hreference]
        exact .inl hfirst
      | scopedName hnone hfirst =>
        rw [List.append_cancel_left hreference]
        exact .inr ⟨hnone, hfirst⟩
      | plain huser => exact absurd ⟨name, hreference⟩ huser
    · rintro ⟨-, hfirst | ⟨hnone, hfirst⟩⟩
      · exact .bareName hfirst
      · exact .scopedName hnone hfirst
  · have hscope : ¬userScope.isPrefixOf reference = true := mt List.isPrefixOf_iff_prefix.mp huser
    rw [if_neg hscope, find?_eq_some_iff_isFirst]
    constructor
    · intro h
      cases h with
      | bareName => exact absurd (List.prefix_append _ _) huser
      | scopedName => exact absurd (List.prefix_append _ _) huser
      | plain _ hsystem hfirst => exact ⟨hsystem, hfirst⟩
    · rintro ⟨hsystem, hfirst⟩
      exact .plain huser hsystem hfirst

/-- A reference names one variable at most. -/
theorem Names.unique {other : String × String} (h : Names table reference entry)
    (h' : Names table reference other) : entry = other := by
  rw [names_iff] at h h'
  exact Option.some.inj (h.2.symm.trans h'.2)

/-! ## What references are replaced by -/

theorem replacement?_of_systemScope (h : systemScope <+: reference) :
    replacement? table reference = some (systemMarker reference) := by
  rw [replacement?, if_pos (List.isPrefixOf_iff_prefix.mpr h)]

theorem replacement?_of_names (h : Names table reference entry) (hsome : entry.2 ≠ "") :
    replacement? table reference = some entry.2.toList := by
  obtain ⟨hsystem, hentry⟩ := names_iff.mp h
  rw [replacement?, if_neg (mt List.isPrefixOf_iff_prefix.mp hsystem), hentry]
  exact if_neg (mt String.isEmpty_iff.mp hsome)

theorem replacement?_eq_none (hsystem : ¬systemScope <+: reference)
    (h : ∀ entry, Names table reference entry → entry.2 = "") :
    replacement? table reference = none := by
  rw [replacement?, if_neg (mt List.isPrefixOf_iff_prefix.mp hsystem)]
  cases hentry : entry? table reference with
  | none => rfl
  | some entry => exact if_pos (String.isEmpty_iff.mpr (h entry (names_iff.mpr ⟨hsystem, hentry⟩)))

end Names

end Runbook.Expression
