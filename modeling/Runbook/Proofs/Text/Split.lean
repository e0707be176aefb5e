import Mathlib.Data.List.Basic
import Mathlib.Data.List.Induction
import Runbook.Text.Blank
import Runbook.Text.Split

/-!
# Cutting what was joined

Pieces that are joined with a mark are found again between the marks, as long as none of them holds
the mark, and the first mark ends the first piece. Conversely, what lies between the marks of a text
and is joined with the mark is the text.

The module introduces:

* `Text.Cuts`: the pieces of a text, told without cutting it;
* `Text.IsTrimmed`: a text without the white space that surrounds it, told without removing it.

The main results are `Text.splitAt_join`, `Text.join_splitAt`, `Text.cut?_append`,
`Text.splitWhere_eq_iff` and `Text.trimmed_eq_iff`.
-/

namespace Runbook.Text

variable {cut : Char → Bool} {piece : List Char}

/-- A text that is cut nowhere is one piece. -/
theorem splitWhere_of_uncut (h : ∀ c ∈ piece, cut c = false) : splitWhere cut piece = [piece] := by
  induction piece with
  | nil => rfl
  | cons c piece ih =>
    have hrest := ih fun d hd => h d (List.mem_cons_of_mem c hd)
    rw [splitWhere, h c List.mem_cons_self, hrest]
    rfl

/-- The pieces on both sides of a cut are those of the texts on both sides. -/
theorem splitWhere_append_cons {mark : Char} (hmark : cut mark = true) (front rest : List Char) :
    splitWhere cut (front ++ mark :: rest) = splitWhere cut front ++ splitWhere cut rest := by
  induction front with
  | nil =>
    change splitWhere cut (mark :: rest) = [] :: splitWhere cut rest
    rw [splitWhere, if_pos hmark]
  | cons c front ih =>
    rw [List.cons_append, splitWhere, ih, splitWhere]
    split
    · rfl
    · obtain ⟨first, pieces, hfront⟩ :=
        List.exists_cons_of_ne_nil (splitWhere_ne_nil cut front)
      rw [hfront]
      rfl

/-- The first cut ends the first piece. -/
theorem splitWhere_append (h : ∀ c ∈ piece, cut c = false) {mark : Char} (hmark : cut mark = true)
    (cs : List Char) : splitWhere cut (piece ++ mark :: cs) = piece :: splitWhere cut cs := by
  rw [splitWhere_append_cons hmark, splitWhere_of_uncut h, List.singleton_append]

/-- Pieces that are joined with a mark are the pieces between the marks, unless one holds it. -/
theorem splitWhere_joinWith {mark : Char} {pieces : List (List Char)} (hsome : pieces ≠ [])
    (h : ∀ piece ∈ pieces, mark ∉ piece) :
    splitWhere (· == mark) (joinWith [mark] pieces) = pieces := by
  have huncut {piece : List Char} (hpiece : mark ∉ piece) : ∀ c ∈ piece, (c == mark) = false := by
    intro c hc
    exact beq_false_of_ne fun heq => hpiece (heq ▸ hc)
  induction pieces with
  | nil => exact absurd rfl hsome
  | cons piece pieces ih =>
    have hpiece := huncut (h piece List.mem_cons_self)
    cases pieces with
    | nil => exact splitWhere_of_uncut hpiece
    | cons next pieces =>
      have hrest := ih (List.cons_ne_nil next pieces) fun other hother =>
        h other (List.mem_cons_of_mem piece hother)
      rw [joinWith, List.append_assoc, List.singleton_append,
        splitWhere_append hpiece (beq_self_eq_true mark), hrest]
      simp

/-- Texts that are joined with a mark are found between the marks, unless one holds it. -/
theorem splitAt_join {mark : Char} {pieces : List String} (hsome : pieces ≠ [])
    (h : ∀ piece ∈ pieces, mark ∉ piece.toList) :
    splitAt mark (join (String.ofList [mark]) pieces) = pieces := by
  have hsplit : splitWhere (· == mark) (joinWith [mark] (pieces.map String.toList)) =
      pieces.map String.toList :=
    splitWhere_joinWith (by simpa using hsome) (by simpa using h)
  rw [splitAt, join, String.toList_ofList, String.toList_ofList, hsplit, List.map_map]
  simp

/-- A text is what lies between its marks, joined with the mark. -/
theorem joinWith_splitWhere (mark : Char) (cs : List Char) :
    joinWith [mark] (splitWhere (· == mark) cs) = cs := by
  induction cs with
  | nil => rfl
  | cons c cs ih =>
    obtain ⟨first, pieces, hcs⟩ :=
      List.exists_cons_of_ne_nil (splitWhere_ne_nil (· == mark) cs)
    rw [hcs] at ih
    rw [splitWhere, hcs]
    split
    · rename_i hc
      rw [beq_iff_eq.mp hc, joinWith, ih]
      · rfl
      · exact List.cons_ne_nil first pieces
    · rw [← ih]
      cases pieces <;> rfl

/-- A text is what lies between its marks, joined with the mark. -/
theorem join_splitAt (mark : Char) (s : String) :
    join (String.ofList [mark]) (splitAt mark s) = s := by
  rw [join, splitAt, List.map_map, String.toList_ofList]
  simp [Function.comp_def, joinWith_splitWhere]

/-- What lies between the marks of a text holds no mark. -/
theorem notMem_of_mem_splitAt {mark : Char} {s piece : String} (h : piece ∈ splitAt mark s) :
    mark ∉ piece.toList := by
  obtain ⟨cs, hcs, rfl⟩ := List.mem_map.mp h
  rw [String.toList_ofList]
  intro hmark
  cases (not_cut_of_mem_splitWhere hcs mark hmark).symm.trans (beq_self_eq_true mark)

/-- Two texts with a mark between them have the pieces of both. -/
theorem splitAt_append (mark : Char) (s t : String) :
    splitAt mark (s ++ String.ofList [mark] ++ t) = splitAt mark s ++ splitAt mark t := by
  have htext : (s ++ String.ofList [mark] ++ t).toList = s.toList ++ mark :: t.toList := by simp
  have hsplit : splitWhere (· == mark) (s.toList ++ mark :: t.toList) =
      splitWhere (· == mark) s.toList ++ splitWhere (· == mark) t.toList := by
    refine splitWhere_append_cons ?_ s.toList t.toList
    exact beq_self_eq_true mark
  rw [splitAt, htext, hsplit, List.map_append]
  rfl

/-- Texts that are joined are the ones before the last, the separator and the last. -/
theorem joinWith_concat {separator : List Char} {pieces : List (List Char)} (h : pieces ≠ [])
    (last : List Char) :
    joinWith separator (pieces ++ [last]) = joinWith separator pieces ++ separator ++ last := by
  induction pieces with
  | nil => exact absurd rfl h
  | cons piece pieces ih =>
    cases pieces with
    | nil => rfl
    | cons next pieces =>
      change piece ++ separator ++ joinWith separator ((next :: pieces) ++ [last]) = _
      rw [ih (List.cons_ne_nil next pieces)]
      simp [joinWith]

/-- Joined texts hold the characters of each of them. -/
theorem mem_joinWith {separator : List Char} {pieces : List (List Char)} {piece : List Char}
    (hpiece : piece ∈ pieces) {c : Char} (hc : c ∈ piece) : c ∈ joinWith separator pieces := by
  induction pieces with
  | nil => cases hpiece
  | cons first pieces ih =>
    cases pieces with
    | nil =>
      obtain rfl := List.mem_singleton.mp hpiece
      exact hc
    | cons next pieces =>
      rw [joinWith, List.append_assoc]
      · rcases List.mem_cons.mp hpiece with rfl | hpiece
        · exact List.mem_append_left _ hc
        · exact List.mem_append_right _ (List.mem_append_right _ (ih hpiece))
      · exact List.cons_ne_nil next pieces

/-- What lies between the marks of a text is made of its characters. -/
theorem mem_of_mem_splitAt {mark : Char} {s piece : String} (h : piece ∈ splitAt mark s) {c : Char}
    (hc : c ∈ piece.toList) : c ∈ s.toList := by
  obtain ⟨cs, hcs, rfl⟩ := List.mem_map.mp h
  rw [String.toList_ofList] at hc
  rw [← joinWith_splitWhere mark s.toList]
  exact mem_joinWith hcs hc

/-- The characters of joined texts are those of the texts and of the separator. -/
theorem mem_of_mem_joinWith {separator : List Char} {pieces : List (List Char)} {c : Char}
    (h : c ∈ joinWith separator pieces) : c ∈ separator ∨ ∃ piece ∈ pieces, c ∈ piece := by
  induction pieces with
  | nil => cases h
  | cons piece pieces ih =>
    cases pieces with
    | nil => exact .inr ⟨piece, List.mem_cons_self, h⟩
    | cons next pieces =>
      rw [joinWith, List.mem_append, List.mem_append] at h
      · rcases h with (hc | hc) | hc
        · exact .inr ⟨piece, List.mem_cons_self, hc⟩
        · exact .inl hc
        · rcases ih hc with hc | ⟨other, hother, hc⟩
          · exact .inl hc
          · exact .inr ⟨other, List.mem_cons_of_mem piece hother, hc⟩
      · exact List.cons_ne_nil next pieces

/-- A text is cut at the first mark. -/
theorem cut?_append {mark : Char} {first : List Char} (h : mark ∉ first) (rest : List Char) :
    cut? mark (first ++ mark :: rest) = some (first, rest) := by
  induction first with
  | nil => simp [cut?]
  | cons c first ih =>
    obtain ⟨hc, hfirst⟩ := not_or.mp (mt List.mem_cons.mpr h)
    rw [List.cons_append, cut?, ih hfirst, if_neg (by simpa using Ne.symm hc)]
    rfl

/-- What stands before and after the first mark is the text with the mark. -/
theorem eq_of_cut? {mark : Char} {cs front rest : List Char}
    (h : cut? mark cs = some (front, rest)) : cs = front ++ mark :: rest := by
  induction cs generalizing front with
  | nil => cases h
  | cons c cs ih =>
    unfold cut? at h
    split at h
    · rename_i hc
      cases h
      rw [beq_iff_eq.mp hc, List.nil_append]
    · obtain ⟨⟨before, after⟩, hcut, hpair⟩ := Option.map_eq_some_iff.mp h
      cases hpair
      rw [List.cons_append, ← ih hcut]

/-- There is no mark before the first one. -/
theorem notMem_of_cut? {mark : Char} {cs front rest : List Char}
    (h : cut? mark cs = some (front, rest)) : mark ∉ front := by
  induction cs generalizing front with
  | nil => cases h
  | cons c cs ih =>
    unfold cut? at h
    split at h
    case isTrue =>
      cases h
      exact List.not_mem_nil
    case isFalse hc =>
      obtain ⟨⟨before, after⟩, hcut, hpair⟩ := Option.map_eq_some_iff.mp h
      cases hpair
      exact List.not_mem_cons_of_ne_of_not_mem (fun heq => hc (beq_iff_eq.mpr heq.symm)) (ih hcut)

/-! ## The end of a text -/

/-- The characters at the end of a text for which something holds, and what stands before them. -/
theorem exists_append_end (p : Char → Bool) (cs : List Char) :
    ∃ front back, cs = front ++ back ∧ (∀ c ∈ front.getLast?, p c = false) ∧
      ∀ c ∈ back, p c = true := by
  induction cs using List.reverseRecOn with
  | nil => exact ⟨[], [], rfl, by simp, by simp⟩
  | append_singleton cs c ih =>
    cases hc : p c with
    | false => exact ⟨cs ++ [c], [], (List.append_nil _).symm, by simpa using hc, by simp⟩
    | true =>
      obtain ⟨front, back, rfl, hfront, hback⟩ := ih
      refine ⟨front, back ++ [c], List.append_assoc front back [c], hfront, ?_⟩
      exact List.forall_mem_append.mpr ⟨hback, by simpa using hc⟩

/-- The last piece of a text is what stands behind the last cut. -/
theorem getLast?_splitWhere {front segment : List Char}
    (hfront : ∀ c ∈ front.getLast?, cut c = true) (hsegment : ∀ c ∈ segment, cut c = false) :
    (splitWhere cut (front ++ segment)).getLast? = some segment := by
  rcases List.eq_nil_or_concat' front with rfl | ⟨before, mark, rfl⟩
  · rw [List.nil_append, splitWhere_of_uncut hsegment]
    rfl
  · have hmark : cut mark = true := hfront mark (by simp)
    rw [List.append_assoc, List.singleton_append, splitWhere_append_cons hmark,
      splitWhere_of_uncut hsegment, List.getLast?_concat]

/-- What is dropped at the end of a text is all that stands behind its last other character. -/
theorem dropEnd_append {p : Char → Bool} {front back : List Char}
    (hfront : ∀ c ∈ front.getLast?, p c = false) (hback : ∀ c ∈ back, p c = true) :
    dropEnd p (front ++ back) = front := by
  have hreversed : ∀ c ∈ back.reverse, p c = true := fun c hc => hback c (List.mem_reverse.mp hc)
  rw [dropEnd, List.reverse_append, List.dropWhile_append_of_pos hreversed]
  cases hhead : front.reverse with
  | nil =>
    rw [List.reverse_eq_nil_iff.mp hhead]
    rfl
  | cons c rest =>
    have hc : p c = false := hfront c (by rw [← List.head?_reverse, hhead]; rfl)
    rw [List.dropWhile_cons, hc, if_neg Bool.false_ne_true, ← hhead, List.reverse_reverse]

/-! ## Pieces and trimmed pieces, told without cutting -/

/-- The pieces that lie between the cuts of a text. -/
inductive Cuts (cut : Char → Bool) : List Char → List (List Char) → Prop
  | last {piece : List Char} : (∀ c ∈ piece, cut c = false) → Cuts cut piece [piece]
  | cons {piece rest : List Char} {mark : Char} {pieces : List (List Char)} :
    (∀ c ∈ piece, cut c = false) → cut mark = true → Cuts cut rest pieces →
    Cuts cut (piece ++ mark :: rest) (piece :: pieces)

theorem cuts_splitWhere (cut : Char → Bool) (cs : List Char) : Cuts cut cs (splitWhere cut cs) := by
  induction cs with
  | nil => exact .last fun c hc => by cases hc
  | cons c cs ih =>
    rw [splitWhere]
    split
    · rename_i hc
      have hempty : ∀ d ∈ ([] : List Char), cut d = false := by simp
      exact .cons hempty hc ih
    · rename_i hc
      rw [Bool.not_eq_true] at hc
      obtain ⟨first, pieces, hcs⟩ := List.exists_cons_of_ne_nil (splitWhere_ne_nil cut cs)
      rw [hcs] at ih ⊢
      -- The character joins the first piece.
      cases ih with
      | last hpiece => exact .last (List.forall_mem_cons.mpr ⟨hc, hpiece⟩)
      | cons hpiece hmark hrest =>
        exact .cons (List.forall_mem_cons.mpr ⟨hc, hpiece⟩) hmark hrest

/-- Splitting a text gives the pieces that lie between its cuts. -/
theorem splitWhere_eq_iff {cs : List Char} {pieces : List (List Char)} :
    splitWhere cut cs = pieces ↔ Cuts cut cs pieces := by
  constructor
  · rintro rfl
    exact cuts_splitWhere cut cs
  · intro h
    induction h with
    | last hpiece => exact splitWhere_of_uncut hpiece
    | cons hpiece hmark _ ih => rw [splitWhere_append hpiece hmark, ih]

/-- A text without the white space that surrounds it. -/
structure IsTrimmed (cs trimmed : List Char) : Prop where
  /-- What is left out is white space at the two ends. -/
  surrounded : ∃ before after, cs = before ++ trimmed ++ after ∧
    (∀ c ∈ before, isSpace c = true) ∧ ∀ c ∈ after, isSpace c = true
  /-- No white space is left at the front. -/
  first : ∀ c ∈ trimmed.head?, isSpace c = false
  /-- No white space is left at the end. -/
  last : ∀ c ∈ trimmed.getLast?, isSpace c = false

theorem isTrimmed_trimmed (cs : List Char) : IsTrimmed cs (trimmed cs) := by
  have hmiddle : cs.dropWhile isSpace =
      trimmed cs ++ ((cs.dropWhile isSpace).reverse.takeWhile isSpace).reverse := by
    rw [trimmed, ← List.reverse_append, List.takeWhile_append_dropWhile, List.reverse_reverse]
  refine ⟨⟨cs.takeWhile isSpace, ((cs.dropWhile isSpace).reverse.takeWhile isSpace).reverse, ?_,
    List.all_eq_true.mp List.all_takeWhile, fun c hc => ?_⟩, fun c hc => ?_, fun c hc => ?_⟩
  · rw [List.append_assoc, ← hmiddle, List.takeWhile_append_dropWhile]
  · exact List.all_eq_true.mp List.all_takeWhile c (List.mem_reverse.mp hc)
  · have hhead := List.head?_dropWhile_not isSpace cs
    obtain ⟨tail, htrimmed⟩ := List.head?_eq_some_iff.mp hc
    rw [hmiddle, htrimmed] at hhead
    exact hhead
  · have hlast := List.head?_dropWhile_not isSpace (cs.dropWhile isSpace).reverse
    rw [trimmed, List.getLast?_reverse] at hc
    rw [Option.mem_def.mp hc] at hlast
    exact hlast

/-- Trimming gives the text without the white space that surrounds it. -/
theorem trimmed_eq_iff {cs out : List Char} : trimmed cs = out ↔ IsTrimmed cs out := by
  constructor
  · rintro rfl
    exact isTrimmed_trimmed cs
  · rintro ⟨⟨before, after, rfl, hbefore, hafter⟩, hfirst, hlast⟩
    rw [trimmed, List.append_assoc, List.dropWhile_append_of_pos hbefore]
    cases out with
    | nil =>
      rw [List.nil_append, (dropWhile_isSpace_eq_nil_iff after).mpr (List.all_eq_true.mpr hafter)]
      rfl
    | cons c out =>
      have hreversed : ∀ c ∈ after.reverse, isSpace c = true :=
        fun c hc => hafter c (List.mem_reverse.mp hc)
      obtain ⟨d, tail, hd⟩ := List.exists_cons_of_ne_nil (by simp : (c :: out).reverse ≠ [])
      have hspace : isSpace d = false := hlast d (by rw [← List.head?_reverse, hd]; rfl)
      rw [List.cons_append, List.dropWhile_cons, hfirst c rfl, if_neg Bool.false_ne_true,
        ← List.cons_append, List.reverse_append, List.dropWhile_append_of_pos hreversed, hd,
        List.dropWhile_cons, hspace, if_neg Bool.false_ne_true, ← hd, List.reverse_reverse]

/-- What is left of a text without the white space around it has something to show. -/
theorem IsTrimmed.not_isBlank {cs out : List Char} (h : IsTrimmed cs out) (hsome : out ≠ []) :
    isBlank (String.ofList out) = false := by
  obtain ⟨c, tail, rfl⟩ := List.exists_cons_of_ne_nil hsome
  have hc : isSpace c = false := h.first c rfl
  rw [isBlank, String.toList_ofList, List.all_cons, hc, Bool.false_and]

end Runbook.Text
