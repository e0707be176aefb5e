import Mathlib.Data.List.Forall2
import Runbook.Proofs.Reference.Overlong

/-!
# Where placeholders stand

Which placeholders stand at which positions of a text is told without a scanner. Two of them never
overlap, the scanner lists all of them from left to right, and replacing them changes nothing else:
every position of the text becomes its own character, or is part of a placeholder, for which the
text of the value that it points to stands at its opening brace. What is put in is not looked at
again, and a text may be cut wherever no placeholder stands across the cut.

The module introduces:

* `Reference.OccursAt`: a placeholder stands at a position of a text;
* `Reference.IsListing`, `Reference.Crosses`: all the places where placeholders stand, and a
  placeholder that stands across a boundary;
* `Substitution.Becomes`: what a position of a text becomes;
* `Reference.ScansAt`: the invariant of a scan, which carries the results over the text.

The main result is `Substitution.replaces_exactly`.
-/

namespace Runbook

namespace Reference

/-! ## Occurrences -/

/-- A placeholder stands at a position of a text. -/
structure OccursAt (cs : List Char) (start : Nat) (r : Reference) : Prop where
  /-- It is one that a text can hold. -/
  scannable : r.IsScannable
  /-- Its characters stand there. -/
  stands : r.text <+: cs.drop start

/-- The places where placeholders stand in a text, from left to right, each with the placeholder. -/
structure IsListing (cs : List Char) (places : List (Nat × Reference)) : Prop where
  /-- They go from left to right. -/
  ascending : (places.map Prod.fst).Pairwise (· < ·)
  /-- There are no others. -/
  mem_iff : ∀ start r, (start, r) ∈ places ↔ OccursAt cs start r

/-- A placeholder stands across a boundary of a text. -/
def Crosses (cs : List Char) (boundary : Nat) : Prop :=
  ∃ start r, OccursAt cs start r ∧ start < boundary ∧ boundary < start + r.text.length

theorem occursAt_iff {cs : List Char} {start : Nat} {r : Reference} :
    OccursAt cs start r ↔ ∃ length, at? (cs.drop start) = some (r, length) := by
  constructor
  · intro h
    exact ⟨r.text.length - 1, at?_eq_some_iff.mpr ⟨h.scannable, h.stands, rfl⟩⟩
  · rintro ⟨length, h⟩
    obtain ⟨hscannable, hstands, -⟩ := at?_eq_some_iff.mp h
    exact ⟨hscannable, hstands⟩

@[simp]
theorem occursAt_cons_succ {c : Char} {cs : List Char} {start : Nat} {r : Reference} :
    OccursAt (c :: cs) (start + 1) r ↔ OccursAt cs start r := by
  rw [occursAt_iff, occursAt_iff, List.drop_succ_cons]

/-- Whether a placeholder stands across a boundary is seen at the positions before it. -/
theorem crosses_iff {cs : List Char} {boundary : Nat} :
    Crosses cs boundary ↔ ∃ start < boundary, ∃ found ∈ at? (cs.drop start),
      boundary < start + found.1.text.length := by
  constructor
  · rintro ⟨start, r, hoccurs, hstart, hend⟩
    obtain ⟨length, hat⟩ := occursAt_iff.mp hoccurs
    exact ⟨start, hstart, (r, length), hat, hend⟩
  · rintro ⟨start, hstart, ⟨r, length⟩, hat, hend⟩
    exact ⟨start, r, occursAt_iff.mpr ⟨length, hat⟩, hstart, hend⟩

instance (cs : List Char) (boundary : Nat) : Decidable (Crosses cs boundary) :=
  decidable_of_iff _ crosses_iff.symm

/-- The only opening brace of a placeholder is its first character. -/
theorem IsScannable.brace_notMem_tail {r : Reference} (h : r.IsScannable) :
    '\x7b' ∉ r.text.tail := by
  intro hbrace
  have hparts : '\x7b' ∈ r.step.toList ∨ '\x7b' ∈ r.output.toList := by
    simpa [text] using hbrace
  rcases hparts with hstep | houtput
  · cases h.step _ hstep
  · cases h.output _ houtput

namespace OccursAt

variable {cs : List Char} {first second start : Nat} {r r' : Reference}

/-- At one position there stands one placeholder only. -/
theorem unique (h : OccursAt cs start r) (h' : OccursAt cs start r') : r = r' := by
  obtain ⟨length, hat⟩ := occursAt_iff.mp h
  obtain ⟨length', hat'⟩ := occursAt_iff.mp h'
  rw [hat] at hat'
  cases hat'
  rfl

/-- Placeholders never overlap. -/
theorem end_le (h : OccursAt cs first r) (h' : OccursAt cs second r') (hlt : first < second) :
    first + r.text.length ≤ second := by
  by_contra hoverlap
  obtain ⟨rest, hrest⟩ := h.stands
  obtain ⟨rest', hrest'⟩ := h'.stands
  obtain ⟨gap, rfl⟩ := Nat.exists_eq_add_of_lt hlt
  -- The second one would begin with its brace within the first one.
  have hinner : r'.text ++ rest' = r.text.tail.drop gap ++ rest := by
    rw [hrest', Nat.add_assoc, ← List.drop_drop, ← hrest, List.drop_append_of_le_length (by omega),
      ← List.drop_one, List.drop_drop, Nat.add_comm 1 gap]
  have hsome : r.text.tail.drop gap ≠ [] := by
    rw [Ne, List.drop_eq_nil_iff, List.length_tail]
    omega
  obtain ⟨c, tail, hc⟩ := List.exists_cons_of_ne_nil hsome
  rw [hc, text] at hinner
  have hbrace : '\x7b' ∈ r.text.tail := by
    refine List.mem_of_mem_drop (i := gap) ?_
    rw [hc, ← (List.cons.inj hinner).1]
    exact List.mem_cons_self
  exact h.scannable.brace_notMem_tail hbrace

end OccursAt

/-! ## Scanning -/

/-- Where a scan stands: it has come to a position, and the next `skip` characters belong to a
placeholder that was found before. -/
structure ScansAt (cs : List Char) (position skip : Nat) : Prop where
  /-- The characters that are passed over are the rest of a placeholder. -/
  inside : 0 < skip → ∃ start r, OccursAt cs start r ∧ start < position ∧
    start + r.text.length = position + skip
  /-- Placeholders that began before end with them. -/
  ended : ∀ start r, OccursAt cs start r → start < position →
    start + r.text.length ≤ position + skip

namespace ScansAt

variable {cs : List Char} {position skip : Nat}

theorem start (cs : List Char) : ScansAt cs 0 0 :=
  ⟨fun h => absurd h (Nat.lt_irrefl 0), fun _ _ _ h => absurd h (Nat.not_lt_zero _)⟩

/-- A position that is passed over is inside a placeholder. -/
theorem covered (h : ScansAt cs position (skip + 1)) :
    ∃ start r, OccursAt cs start r ∧ start < position ∧ position < start + r.text.length := by
  obtain ⟨start, r, hoccurs, hstart, hend⟩ := h.inside (Nat.succ_pos skip)
  exact ⟨start, r, hoccurs, hstart, by omega⟩

/-- No placeholder begins at a position that is passed over. -/
theorem not_occursAt (h : ScansAt cs position (skip + 1)) (r : Reference) :
    ¬OccursAt cs position r := by
  intro hoccurs
  obtain ⟨start, r', hoccurs', hstart, hend⟩ := h.covered
  have := hoccurs'.end_le hoccurs hstart
  omega

/-- A character of a placeholder that was found before is passed over. -/
theorem pass (h : ScansAt cs position (skip + 1)) : ScansAt cs (position + 1) skip := by
  refine ⟨fun _ => ?_, fun start r hoccurs hstart => ?_⟩
  · obtain ⟨start, r, hoccurs, hstart, hend⟩ := h.inside (Nat.succ_pos skip)
    exact ⟨start, r, hoccurs, by omega, by omega⟩
  · rcases Nat.lt_succ_iff_lt_or_eq.mp hstart with hbefore | rfl
    · have := h.ended start r hoccurs hbefore
      omega
    · exact absurd hoccurs (h.not_occursAt r)

/-- A placeholder is found, and its further characters are to be passed over. -/
theorem found (h : ScansAt cs position 0) {r : Reference} {length : Nat}
    (hat : at? (cs.drop position) = some (r, length)) : ScansAt cs (position + 1) length := by
  have hoccurs := occursAt_iff.mpr ⟨length, hat⟩
  obtain ⟨-, -, hlength⟩ := at?_eq_some_iff.mp hat
  refine ⟨fun _ => ⟨position, r, hoccurs, Nat.lt_succ_self position, by omega⟩,
    fun start r' hoccurs' hstart => ?_⟩
  rcases Nat.lt_succ_iff_lt_or_eq.mp hstart with hbefore | rfl
  · have := h.ended start r' hoccurs' hbefore
    omega
  · rw [hoccurs'.unique hoccurs]
    omega

/-- A character belongs to no placeholder. -/
theorem keep (h : ScansAt cs position 0) (hat : at? (cs.drop position) = none) :
    ScansAt cs (position + 1) 0 := by
  refine ⟨fun hskip => absurd hskip (Nat.lt_irrefl 0), fun start r hoccurs hstart => ?_⟩
  rcases Nat.lt_succ_iff_lt_or_eq.mp hstart with hbefore | rfl
  · have := h.ended start r hoccurs hbefore
    omega
  · obtain ⟨length, hfound⟩ := occursAt_iff.mp hoccurs
    cases hat.symm.trans hfound

end ScansAt

/-- The scan from a position on lists the placeholders that begin there or later. -/
theorem ScansAt.exists_listing {cs rest : List Char} {position skip : Nat}
    (h : ScansAt cs position skip) (hrest : cs.drop position = rest) :
    ∃ places : List (Nat × Reference),
      places.map Prod.snd = (piecesFrom skip rest).filterMap Piece.reference? ∧
      (places.map Prod.fst).Pairwise (· < ·) ∧
      ∀ start r, (start, r) ∈ places ↔ OccursAt cs start r ∧ position ≤ start := by
  induction rest generalizing position skip with
  | nil =>
    refine ⟨[], by cases skip <;> rfl, List.Pairwise.nil, fun start r => ?_⟩
    -- Behind the end of the text there stands nothing.
    have hnone : ¬(OccursAt cs start r ∧ position ≤ start) := by
      rintro ⟨hoccurs, hle⟩
      obtain ⟨length, hat⟩ := occursAt_iff.mp hoccurs
      rw [List.drop_eq_nil_iff.mpr (Nat.le_trans (List.drop_eq_nil_iff.mp hrest) hle)] at hat
      cases hat
    simp [hnone]
  | cons c rest ih =>
    have htail : cs.drop (position + 1) = rest := by rw [← List.tail_drop, hrest]; rfl
    -- A place that is not this one comes later.
    have hlater {start : Nat} {r : Reference} (hne : ¬(OccursAt cs start r ∧ start = position)) :
        OccursAt cs start r ∧ position + 1 ≤ start ↔ OccursAt cs start r ∧ position ≤ start := by
      refine and_congr_right fun hoccurs => ?_
      have : start ≠ position := fun heq => hne ⟨hoccurs, heq⟩
      omega
    cases skip with
    | succ skip =>
      obtain ⟨places, hplaces, hascending, hmem⟩ := ih h.pass htail
      refine ⟨places, hplaces, hascending, fun start r => (hmem start r).trans (hlater ?_)⟩
      rintro ⟨hoccurs, rfl⟩
      exact h.not_occursAt r hoccurs
    | zero =>
      rw [piecesFrom]
      cases hat : at? (c :: rest) with
      | none =>
        have hnone : at? (cs.drop position) = none := hrest ▸ hat
        obtain ⟨places, hplaces, hascending, hmem⟩ := ih (h.keep hnone) htail
        refine ⟨places, hplaces, hascending, fun start r => (hmem start r).trans (hlater ?_)⟩
        rintro ⟨hoccurs, rfl⟩
        obtain ⟨length, hfound⟩ := occursAt_iff.mp hoccurs
        cases hnone.symm.trans hfound
      | some found =>
        obtain ⟨r, length⟩ := found
        have hfound : at? (cs.drop position) = some (r, length) := hrest ▸ hat
        have hhere : OccursAt cs position r := occursAt_iff.mpr ⟨length, hfound⟩
        obtain ⟨places, hplaces, hascending, hmem⟩ := ih (h.found hfound) htail
        refine ⟨(position, r) :: places, congrArg (r :: ·) hplaces, ?_, fun start r' => ?_⟩
        · refine List.Pairwise.cons (fun start hstart => ?_) hascending
          obtain ⟨⟨_, r'⟩, hplace, rfl⟩ := List.mem_map.mp hstart
          exact ((hmem _ r').mp hplace).2
        · rw [List.mem_cons, hmem, Prod.mk.injEq]
          by_cases heq : start = position
          · subst heq
            constructor
            · rintro (⟨-, rfl⟩ | ⟨-, hlt⟩)
              · exact ⟨hhere, Nat.le_refl _⟩
              · exact absurd hlt (Nat.not_succ_le_self _)
            · rintro ⟨hoccurs, -⟩
              exact .inl ⟨rfl, hoccurs.unique hhere⟩
          · rw [hlater fun hboth => heq hboth.2]
            simp [heq]

/-- The scanner lists the placeholders of a text from left to right, each where it stands. -/
theorem exists_isListing (s : String) :
    ∃ places, IsListing s.toList places ∧ places.map Prod.snd = ofText s := by
  obtain ⟨places, hplaces, hascending, hmem⟩ := (ScansAt.start s.toList).exists_listing rfl
  exact ⟨places, ⟨hascending, fun start r => by simp [hmem]⟩, hplaces⟩

/-! ## Boundaries -/

/-- A text may be scanned in two parts if no placeholder stands across the boundary between them. -/
theorem piecesFrom_append_of_not_crosses {skip : Nat} {front rest : List Char}
    (hskip : skip ≤ front.length)
    (hboundary : ¬Crosses (front ++ rest) front.length) :
    piecesFrom skip (front ++ rest) = piecesFrom skip front ++ piecesFrom 0 rest := by
  induction front generalizing skip with
  | nil =>
    obtain rfl := Nat.le_zero.mp hskip
    rfl
  | cons c front ih =>
    have htail : ¬Crosses (front ++ rest) front.length := by
      rintro ⟨start, r, hoccurs, hstart, hend⟩
      refine hboundary ⟨start + 1, r, occursAt_cons_succ.mpr hoccurs, ?_, ?_⟩
      · exact Nat.succ_lt_succ hstart
      · rw [List.length_cons]
        omega
    cases skip with
    | succ skip => exact ih (Nat.le_of_succ_le_succ hskip) htail
    | zero =>
      rw [List.cons_append, piecesFrom, piecesFrom]
      cases hat : at? (c :: (front ++ rest)) with
      | none =>
        -- A placeholder at the front of the first part would stand in the whole text, too.
        have hnone : at? (c :: front) = none := by
          refine Option.eq_none_iff_forall_ne_some.mpr ?_
          rintro ⟨r, length⟩ hfound
          obtain ⟨hscannable, hstands, hlength⟩ := at?_eq_some_iff.mp hfound
          have hwhole := at?_eq_some_iff.mpr
            ⟨hscannable, hstands.trans (List.prefix_append _ rest), hlength⟩
          cases hat.symm.trans hwhole
        rw [hnone]
        exact congrArg _ (ih (Nat.zero_le _) htail)
      | some found =>
        obtain ⟨r, length⟩ := found
        obtain ⟨hscannable, hstands, hlength⟩ := at?_eq_some_iff.mp hat
        have hend : r.text.length ≤ (c :: front).length := by
          by_contra hlong
          refine hboundary ⟨0, r, ⟨hscannable, hstands⟩, Nat.succ_pos _, ?_⟩
          omega
        have hfront : at? (c :: front) = some (r, length) :=
          at?_eq_some_iff.mpr ⟨hscannable,
            List.prefix_of_prefix_length_le hstands (List.prefix_append (c :: front) rest) hend,
            hlength⟩
        rw [hfront]
        rw [List.length_cons] at hend
        exact congrArg _ (ih (by omega) htail)

end Reference

namespace Substitution

open Reference

/-! ## Replacing -/

/-- What a position of a text becomes when placeholders are replaced. -/
inductive Becomes (results : Results) (cs : List Char) (position : Nat) : List Char → Prop
  /-- Where a placeholder begins, the text of the value that it points to is put in. -/
  | placeholder {r : Reference} {j : Json} :
    OccursAt cs position r → Pointer.resolve results r.step r.output = .ok j →
    Becomes results cs position j.inserted.toList
  /-- The further characters of a placeholder go. -/
  | covered {start : Nat} {r : Reference} :
    OccursAt cs start r → start < position → position < start + r.text.length →
    Becomes results cs position []
  /-- A character outside of all placeholders stays. -/
  | kept {c : Char} :
    cs[position]? = some c →
    (∀ start r, OccursAt cs start r → start ≤ position → start + r.text.length ≤ position) →
    Becomes results cs position [c]

section Becomes

variable {results : Results} {cs : List Char} {position skip : Nat} {part : List Char}

theorem becomes_iff_of_covered (h : ScansAt cs position (skip + 1)) :
    Becomes results cs position part ↔ part = [] := by
  obtain ⟨start, r, hoccurs, hstart, hend⟩ := h.covered
  constructor
  · intro hbecomes
    cases hbecomes with
    | placeholder hhere _ => exact absurd hhere (h.not_occursAt _)
    | covered _ _ _ => rfl
    | kept _ houtside =>
      have := houtside start r hoccurs (Nat.le_of_lt hstart)
      omega
  · rintro rfl
    exact .covered hoccurs hstart hend

theorem becomes_iff_of_found (h : ScansAt cs position 0) {r : Reference} {length : Nat}
    (hat : at? (cs.drop position) = some (r, length)) :
    Becomes results cs position part ↔ ofPiece results (.placeholder r) = .ok part := by
  have hhere : OccursAt cs position r := occursAt_iff.mpr ⟨length, hat⟩
  rw [ofPiece]
  constructor
  · intro hbecomes
    cases hbecomes with
    | placeholder hoccurs hresolve =>
      rw [hhere.unique hoccurs, hresolve]
      rfl
    | covered hoccurs hstart hend =>
      have := h.ended _ _ hoccurs hstart
      omega
    | kept _ houtside =>
      have := houtside position r hhere (Nat.le_refl position)
      have := (at?_eq_some_iff.mp hat).2.2
      omega
  · intro hpart
    cases hresolve : Pointer.resolve results r.step r.output with
    | error e =>
      rw [hresolve] at hpart
      cases hpart
    | ok j =>
      rw [hresolve] at hpart
      cases hpart
      exact .placeholder hhere hresolve

theorem becomes_iff_of_kept (h : ScansAt cs position 0) (hat : at? (cs.drop position) = none)
    {c : Char} (hc : cs[position]? = some c) :
    Becomes results cs position part ↔ ofPiece results (.char c) = .ok part := by
  have hnone (r : Reference) : ¬OccursAt cs position r := by
    intro hoccurs
    obtain ⟨length, hfound⟩ := occursAt_iff.mp hoccurs
    cases hat.symm.trans hfound
  rw [ofPiece, Except.ok.injEq]
  constructor
  · intro hbecomes
    cases hbecomes with
    | placeholder hhere _ => exact absurd hhere (hnone _)
    | covered hoccurs hstart hend =>
      have := h.ended _ _ hoccurs hstart
      omega
    | kept hc' _ =>
      cases hc.symm.trans hc'
      rfl
  · rintro rfl
    refine .kept hc fun start r hoccurs hstart => ?_
    rcases Nat.lt_or_eq_of_le hstart with hbefore | rfl
    · exact h.ended start r hoccurs hbefore
    · exact absurd hoccurs (hnone r)

end Becomes

/-- What pieces become is what the first of them and what the others become. -/
theorem ofPieces_cons_eq_ok_iff {results : Results} {piece : Piece} {pieces : List Piece}
    {out : List Char} :
    ofPieces results (piece :: pieces) = .ok out ↔
      ∃ first rest, ofPiece results piece = .ok first ∧ ofPieces results pieces = .ok rest ∧
        out = first ++ rest := by
  rw [ofPieces]
  cases ofPiece results piece with
  | error e => simp [bind, Except.bind]
  | ok first =>
    cases ofPieces results pieces with
    | error e => simp [bind, Except.bind]
    | ok rest => simp [bind, Except.bind, pure, Except.pure, eq_comm]

/-- Replacing the placeholders from a position on gives what the positions become, one after the
other. -/
theorem ofPieces_eq_ok_iff {results : Results} {cs rest : List Char} {position skip : Nat}
    (h : ScansAt cs position skip) (hrest : cs.drop position = rest) {out : List Char} :
    ofPieces results (piecesFrom skip rest) = .ok out ↔
      ∃ parts, List.Forall₂ (Becomes results cs) (List.range' position rest.length) parts ∧
        out = parts.flatten := by
  induction rest generalizing position skip out with
  | nil =>
    have hpieces : piecesFrom skip [] = [] := by cases skip <;> rfl
    simp [hpieces, ofPieces, eq_comm]
  | cons c rest ih =>
    have htail : cs.drop (position + 1) = rest := by rw [← List.tail_drop, hrest]; rfl
    -- The first part is what this position becomes.
    have hparts : (∃ parts, List.Forall₂ (Becomes results cs)
          (List.range' position (c :: rest).length) parts ∧ out = parts.flatten) ↔
        ∃ first parts, Becomes results cs position first ∧
          List.Forall₂ (Becomes results cs) (List.range' (position + 1) rest.length) parts ∧
          out = first ++ parts.flatten := by
      rw [List.length_cons, List.range'_succ]
      simp only [List.forall₂_cons_left_iff]
      constructor
      · rintro ⟨_, ⟨first, parts, hfirst, hlater, rfl⟩, hout⟩
        exact ⟨first, parts, hfirst, hlater, hout⟩
      · rintro ⟨first, parts, hfirst, hlater, hout⟩
        exact ⟨first :: parts, ⟨first, parts, hfirst, hlater, rfl⟩, hout⟩
    rw [hparts]
    have hstep {piece : Piece} {length : Nat} (hnext : ScansAt cs (position + 1) length)
        (hpiece : ∀ part, Becomes results cs position part ↔ ofPiece results piece = .ok part) :
        ofPieces results (piece :: piecesFrom length rest) = .ok out ↔
          ∃ first parts, Becomes results cs position first ∧
            List.Forall₂ (Becomes results cs) (List.range' (position + 1) rest.length) parts ∧
            out = first ++ parts.flatten := by
      simp only [ofPieces_cons_eq_ok_iff, ih hnext htail, hpiece]
      constructor
      · rintro ⟨first, _, hfirst, ⟨parts, hlater, rfl⟩, hout⟩
        exact ⟨first, parts, hfirst, hlater, hout⟩
      · rintro ⟨first, parts, hfirst, hlater, hout⟩
        exact ⟨first, _, hfirst, ⟨parts, hlater, rfl⟩, hout⟩
    cases skip with
    | succ skip =>
      rw [piecesFrom, ih h.pass htail]
      simp [becomes_iff_of_covered h]
    | zero =>
      rw [piecesFrom]
      cases hat : at? (c :: rest) with
      | none =>
        have hnone : at? (cs.drop position) = none := hrest ▸ hat
        have hc : cs[position]? = some c := by rw [← List.head?_drop, hrest]; rfl
        exact hstep (h.keep hnone) fun part => becomes_iff_of_kept h hnone hc
      | some found =>
        obtain ⟨r, length⟩ := found
        have hfound : at? (cs.drop position) = some (r, length) := hrest ▸ hat
        exact hstep (h.found hfound) fun part => becomes_iff_of_found h hfound

/-- Replacing the placeholders of a text gives what its positions become, one after the other. -/
theorem inText_eq_ok_iff {results : Results} {s t : String} :
    inText results s = .ok t ↔
      ∃ parts, List.Forall₂ (Becomes results s.toList) (List.range s.length) parts ∧
        t.toList = parts.flatten := by
  have hscan : ofPieces results (piecesFrom 0 s.toList) = .ok t.toList ↔
      ∃ parts, List.Forall₂ (Becomes results s.toList) (List.range' 0 s.toList.length) parts ∧
        t.toList = parts.flatten :=
    ofPieces_eq_ok_iff (ScansAt.start s.toList) List.drop_zero
  rw [String.length_toList] at hscan
  rw [List.range_eq_range', ← hscan, inText, pieces]
  cases ofPieces results (piecesFrom 0 s.toList) with
  | error e => simp [Except.map]
  | ok out => simp [Except.map, ← String.toList_inj]

/-- Pieces that follow one another become what they become apart. -/
theorem ofPieces_append (results : Results) (front rest : List Piece) :
    ofPieces results (front ++ rest) = do
      let first ← ofPieces results front
      let second ← ofPieces results rest
      return first ++ second := by
  induction front with
  | nil =>
    cases hrest : ofPieces results rest <;>
      simp [ofPieces, bind, Except.bind, pure, Except.pure, hrest]
  | cons piece front ih =>
    rw [List.cons_append, ofPieces, ofPieces, ih]
    cases ofPiece results piece with
    | error e => rfl
    | ok part =>
      cases ofPieces results front with
      | error e => rfl
      | ok first =>
        cases ofPieces results rest with
        | error e => rfl
        | ok second => simp [bind, Except.bind, pure, Except.pure]

/-- A text may be cut where no placeholder stands across the cut. -/
theorem inText_append {results : Results} {front rest : String}
    (hboundary : ¬Crosses (front ++ rest).toList front.length) :
    inText results (front ++ rest) = do
      let first ← inText results front
      let second ← inText results rest
      return first ++ second := by
  rw [String.toList_append] at hboundary
  rw [inText, pieces, String.toList_append,
    piecesFrom_append_of_not_crosses (Nat.zero_le _) hboundary, ofPieces_append, inText, inText,
    pieces, pieces]
  cases ofPieces results (piecesFrom 0 front.toList) with
  | error e => rfl
  | ok first =>
    cases ofPieces results (piecesFrom 0 rest.toList) with
    | error e => rfl
    | ok second => simp [bind, Except.bind, pure, Except.pure, Except.map]

/-- Placeholders are replaced exactly. They never overlap; replacing them succeeds with the text
that is made of what the positions become: the text of its value where a placeholder begins, nothing
inside of it, and the character itself everywhere else, so that what is put in is never looked at.
The scanner lists the placeholders that are replaced, from left to right. A text that is cut where
no placeholder stands across the cut becomes what its two parts become. -/
theorem replaces_exactly (results : Results) :
    (∀ cs first second r r', OccursAt cs first r → OccursAt cs second r' →
      (first = second ∧ r = r') ∨ first + r.text.length ≤ second ∨
        second + r'.text.length ≤ first) ∧
    (∀ s t, inText results s = .ok t ↔
      ∃ parts, List.Forall₂ (Becomes results s.toList) (List.range s.length) parts ∧
        t.toList = parts.flatten) ∧
    (∀ s, ∃ places, IsListing s.toList places ∧ places.map Prod.snd = ofText s) ∧
    (∀ front rest : String, ¬Crosses (front ++ rest).toList front.length →
      inText results (front ++ rest) = do
        let first ← inText results front
        let second ← inText results rest
        return first ++ second) := by
  refine ⟨fun cs first second r r' h h' => ?_, fun s t => inText_eq_ok_iff, exists_isListing,
    fun front rest => inText_append⟩
  rcases Nat.lt_trichotomy first second with hlt | rfl | hlt
  · exact .inr (.inl (h.end_le h' hlt))
  · exact .inl ⟨rfl, h.unique h'⟩
  · exact .inr (.inr (h'.end_le h hlt))

/-- A text is cut between two placeholders, of which none stands across the cut. -/
theorem replaces_exactly_cut :
    ¬Crosses ("<\x7bA.B\x7d" ++ "\x7bA.B\x7d>").toList "<\x7bA.B\x7d".length ∧
    inText [("A", [("B", ⟨"x", "text"⟩)])] ("<\x7bA.B\x7d" ++ "\x7bA.B\x7d>") = (do
      let first ← inText [("A", [("B", ⟨"x", "text"⟩)])] "<\x7bA.B\x7d"
      let second ← inText [("A", [("B", ⟨"x", "text"⟩)])] "\x7bA.B\x7d>"
      return first ++ second) := by
  have hboundary : ¬Crosses ("<\x7bA.B\x7d" ++ "\x7bA.B\x7d>").toList "<\x7bA.B\x7d".length := by
    decide +kernel
  exact ⟨hboundary, (replaces_exactly _).2.2.2 _ _ hboundary⟩

/-- What is put in completes a placeholder with its neighbours here, which is not looked at. -/
example : inText [("A", [("B", ⟨"A", "text"⟩)])] "\x7b\x7bA.B\x7d.B\x7d" =
    .ok "\x7bA.B\x7d" := by decide +kernel

end Substitution

end Runbook
