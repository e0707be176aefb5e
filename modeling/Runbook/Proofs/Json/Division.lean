import Runbook.Proofs.Json.Stream

/-!
# How a text divides into values

Reading several values from one text comes to an end on every text, since each value takes a
character at least. If it succeeds, the text divides into the texts of the values and white space of
any kind, with nothing skipped and nothing read twice. On the text of one value the reader of a
single value agrees, as long as JSON knows the white space at the two ends.

The module introduces:

* `Json.Divides`: a text divides into texts for values with white space around them;
* `Json.HasBlankEnds`: the white space at the ends of a text is such as JSON knows.

The main result is `Json.parseMany_divides`.
-/

namespace Runbook.Json

/-- A text divides into texts that are read as values, one after the other, with white space of any
kind before, between and after them. -/
inductive Divides : List Char → List Json → Prop
  | last {gap : List Char} : IsSpaces gap → Divides gap []
  | cons {gap text rest : List Char} {value : Json} {values : List Json} :
      IsSpaces gap → text ≠ [] → parse .strict (String.ofList text) = .ok value →
      Divides rest values → Divides (gap ++ (text ++ rest)) (value :: values)

/-- The white space at the front and at the end of a text is such as JSON knows. -/
structure HasBlankEnds (cs : List Char) : Prop where
  /-- White space at the front. -/
  front : ∀ gap rest, cs = gap ++ rest → IsSpaces gap → IsBlank gap
  /-- White space at the end. -/
  back : ∀ rest gap, cs = rest ++ gap → IsSpaces gap → IsBlank gap

/-- A text in which all white space is such as JSON knows has no other at its ends. -/
theorem hasBlankEnds_of_all {cs : List Char}
    (h : cs.all (fun c => !Text.isSpace c || isBlankChar c) = true) : HasBlankEnds cs := by
  have hblank {c : Char} (hc : c ∈ cs) (hspace : Text.isSpace c = true) : isBlankChar c = true := by
    simpa [hspace] using List.all_eq_true.mp h c hc
  constructor
  · rintro gap rest rfl hgap c hc
    exact hblank (List.mem_append_left _ hc) (hgap c hc)
  · rintro rest gap rfl hgap c hc
    exact hblank (List.mem_append_right _ hc) (hgap c hc)

/-! ## Rounds of the reader -/

/-- The white space at the front of a text, and what follows it. -/
theorem exists_spaces_append_dropWhile (cs : List Char) :
    ∃ gap, IsSpaces gap ∧ cs = gap ++ cs.dropWhile Text.isSpace := by
  refine ⟨cs.takeWhile Text.isSpace, fun c hc => ?_, List.takeWhile_append_dropWhile.symm⟩
  exact List.all_eq_true.mp List.all_takeWhile c hc

/-- Every value takes a character at least. -/
theorem Denotes.ne_nil {cs : List Char} {j : Json} (h : Denotes cs j) : cs ≠ [] := by
  obtain ⟨c, tail, rfl, -⟩ := h.first
  exact List.cons_ne_nil c tail

/-- The text of a value is read as the value by itself, too. -/
theorem Denotes.parse {cs : List Char} {j : Json} (h : Denotes cs j) :
    Json.parse .strict (String.ofList cs) = .ok j := by
  refine parse_of_denotes ⟨[], cs, [], isBlank_nil, isBlank_nil, h, ?_⟩
  simp

theorem length_lt_of_readFront {cs rest : List Char} {j : Json}
    (h : readFront .strict cs = .ok (j, rest)) : rest.length < cs.length := by
  obtain ⟨text, htext, rfl⟩ := denotes_of_readFront h
  have hsome := List.length_pos_of_ne_nil htext.ne_nil
  rw [List.length_append]
  omega

/-- As much fuel as there are characters, and one more, is enough: more of it changes nothing. -/
theorem readMany_of_length_lt {fuel fuel' : Nat} {cs : List Char} (h : cs.length < fuel)
    (h' : cs.length < fuel') : readMany fuel cs = readMany fuel' cs := by
  induction fuel generalizing fuel' cs with
  | zero => exact absurd h (Nat.not_lt_zero _)
  | succ fuel ih =>
    obtain ⟨fuel', rfl⟩ : ∃ n, fuel' = n + 1 := Nat.exists_eq_add_one_of_ne_zero (by omega)
    rw [readMany, readMany]
    split
    · rfl
    · cases hread : readFront .strict (cs.dropWhile Text.isSpace) with
      | error fault => rfl
      | ok front =>
        obtain ⟨value, rest⟩ := front
        have hdrop : (cs.dropWhile Text.isSpace).length ≤ cs.length :=
          (List.dropWhile_suffix _).length_le
        have hshort := length_lt_of_readFront hread
        have hrest : readMany fuel rest = readMany fuel' rest := ih (by omega) (by omega)
        simp only [hrest]

/-- Whatever is read as values divides into their texts. -/
theorem divides_of_readMany {fuel : Nat} {cs : List Char} {values : List Json}
    (hfuel : cs.length < fuel) (h : readMany fuel cs = .ok values) : Divides cs values := by
  induction fuel generalizing cs values with
  | zero => exact absurd hfuel (Nat.not_lt_zero _)
  | succ fuel ih =>
    obtain ⟨gap, hgap, hcs⟩ := exists_spaces_append_dropWhile cs
    rw [readMany] at h
    split at h
    · rename_i hnone
      cases h
      rw [hcs, hnone, List.append_nil]
      exact .last hgap
    · split at h
      · cases h
      · rename_i value rest hread
        obtain ⟨text, htext, hfront⟩ := denotes_of_readFront hread
        obtain ⟨others, hothers, rfl⟩ := exists_of_map_eq_ok h
        have hsome := List.length_pos_of_ne_nil htext.ne_nil
        have hlength := congrArg List.length hcs
        rw [hfront, List.length_append, List.length_append] at hlength
        rw [hcs, hfront]
        exact .cons hgap htext.ne_nil htext.parse (ih (by omega) hothers)

/-! ## Refusals -/

/-- A value at which reading stops is faulty in the strict sense. -/
theorem isStrict_of_readMany {fuel : Nat} {cs : List Char} {fault : Fault}
    (h : readMany fuel cs = .error fault) : fault.cause.IsStrict := by
  induction fuel generalizing cs with
  | zero => cases h
  | succ fuel ih =>
    rw [readMany] at h
    split at h
    · cases h
    · split at h
      · rename_i hread
        cases h
        exact (faultsStrict _).value hread
      · exact ih (of_map_eq_error h)

/-- There is no value in a text just if it is blank. -/
theorem readMany_eq_nil_iff (fuel : Nat) {cs : List Char} :
    readMany (fuel + 1) cs = .ok [] ↔ cs.all Text.isSpace = true := by
  rw [← Text.dropWhile_isSpace_eq_nil_iff, readMany]
  split
  · rename_i hnone
    simp [hnone]
  · rename_i hsome
    refine iff_of_false (fun h => ?_) hsome
    split at h
    · cases h
    · obtain ⟨others, -, hcons⟩ := exists_of_map_eq_ok h
      cases hcons

section Outcome

variable {s : String}

theorem parseMany_eq_ok_iff {values : List Json} :
    parseMany s = .ok values ↔ values ≠ [] ∧ readMany (s.length + 1) s.toList = .ok values := by
  rw [parseMany, String.length_toList]
  cases readMany (s.length + 1) s.toList with
  | error fault => simp
  | ok found => cases found <;> grind

theorem parseMany_eq_noValue_iff : parseMany s = .error .noValue ↔ Text.isBlank s = true := by
  rw [Text.isBlank, ← readMany_eq_nil_iff s.length, parseMany, String.length_toList]
  cases readMany (s.length + 1) s.toList with
  | error fault => simp
  | ok found => cases found <;> simp

theorem isStrict_of_parseMany {e : Error} (h : parseMany s = .error (.faulty e)) :
    e.cause.IsStrict := by
  unfold parseMany at h
  split at h
  · rename_i hread
    cases h
    exact isStrict_of_readMany hread
  · cases h
  · cases h

/-! ## One value -/

/-- A text that is read as one value is read as that value by itself, among several. -/
theorem parseMany_of_parse {j : Json} (h : parse .strict s = .ok j) : parseMany s = .ok [j] := by
  have hread : parseMany (String.ofList s.toList) = .ok [j] :=
    parseMany_of_laid (.last s j) (.cons (denotesWhole_of_parse h) .nil)
  rwa [String.ofList_toList] at hread

/-- A text that divides into the text of one value is read as that value, if JSON knows the white
space at its ends. -/
theorem parse_of_divides {j : Json} (h : Divides s.toList [j]) (hends : HasBlankEnds s.toList) :
    parse .strict s = .ok j := by
  generalize hs : s.toList = cs at h hends
  cases h with
  | @cons gap text rest _ _ hgap _ hparse hrest =>
    cases hrest with
    | last hback =>
      obtain ⟨before, body, after, hbefore, hafter, hbody, htext⟩ := denotesWhole_of_parse hparse
      rw [String.toList_ofList] at htext
      have hfront : IsBlank gap := hends.front gap (text ++ rest) rfl hgap
      have hend : IsBlank rest := hends.back (gap ++ text) rest (List.append_assoc ..).symm hback
      refine parse_of_denotes ⟨gap ++ before, body, after ++ rest, ?_, ?_, hbody, ?_⟩
      · exact List.forall_mem_append.mpr ⟨hfront, hbefore⟩
      · exact List.forall_mem_append.mpr ⟨hafter, hend⟩
      · rw [hs, htext]
        simp only [List.append_assoc]

end Outcome

/-- Reading the values of a text comes to an end on every text: it takes no more rounds than there
are characters, and one. If values are read, there is one at least, and the text divides into their
texts with white space around them. What is one value for the reader of a single value is that value
here, and the other way round if JSON knows the white space at the ends of the text. Every other
text is refused, since it is blank or for the fault of a value. -/
theorem parseMany_divides (s : String) :
    (∀ fuel, s.length < fuel → readMany fuel s.toList = readMany (s.length + 1) s.toList) ∧
    (∀ values, parseMany s = .ok values → values ≠ [] ∧ Divides s.toList values) ∧
    (∀ j, parse .strict s = .ok j → parseMany s = .ok [j]) ∧
    (∀ j, parseMany s = .ok [j] → HasBlankEnds s.toList → parse .strict s = .ok j) ∧
    (parseMany s = .error .noValue ↔ Text.isBlank s = true) ∧
    ((∃ e, parseMany s = .error (.faulty e) ∧ e.cause.IsStrict) ↔
      Text.isBlank s = false ∧ ∀ values, parseMany s ≠ .ok values) := by
  have hdivides {values : List Json} (h : parseMany s = .ok values) :
      values ≠ [] ∧ Divides s.toList values := by
    obtain ⟨hsome, hread⟩ := parseMany_eq_ok_iff.mp h
    refine ⟨hsome, divides_of_readMany ?_ hread⟩
    rw [String.length_toList]
    exact Nat.lt_succ_self s.length
  refine ⟨fun fuel hfuel => ?_, fun values => hdivides, fun j => parseMany_of_parse,
    fun j h hends => parse_of_divides (hdivides h).2 hends, parseMany_eq_noValue_iff, ?_, ?_⟩
  · rw [← String.length_toList] at hfuel ⊢
    exact readMany_of_length_lt hfuel (Nat.lt_succ_self _)
  · rintro ⟨e, hrefused, -⟩
    refine ⟨Bool.eq_false_iff.mpr fun hblank => ?_, fun values h => ?_⟩
    · cases hrefused.symm.trans (parseMany_eq_noValue_iff.mpr hblank)
    · cases hrefused.symm.trans h
  · rintro ⟨hblank, hnone⟩
    cases hread : parseMany s with
    | ok values => exact absurd hread (hnone values)
    | error refusal =>
      cases refusal with
      | noValue => cases hblank.symm.trans (parseMany_eq_noValue_iff.mp hread)
      | faulty e => exact ⟨e, rfl, isStrict_of_parseMany hread⟩

/-- A value among white space that JSON knows, which both readers give. -/
theorem parseMany_divides_framed :
    parseMany " true\n" = .ok [.bool true] ∧ HasBlankEnds " true\n".toList ∧
      parse .strict " true\n" = .ok (.bool true) := by
  have hblank {c : Char} (hc : isBlankChar c = true) : IsBlank [c] :=
    List.forall_mem_singleton.mpr hc
  have hwhole : DenotesWhole " true\n".toList (.bool true) :=
    ⟨[' '], "true".toList, ['\n'], hblank rfl, hblank rfl, .word (by simp [words]), rfl⟩
  have hmany : parseMany " true\n" = .ok [.bool true] :=
    parseMany_of_laid (.last " true\n" (.bool true)) (.cons hwhole .nil)
  have hends : HasBlankEnds " true\n".toList := hasBlankEnds_of_all (by decide +kernel)
  exact ⟨hmany, hends, (parseMany_divides " true\n").2.2.2.1 _ hmany hends⟩

/-- A no-break space is white space before a value among several, but JSON knows it not. -/
example : parseMany "\u00a01" = .ok [.number "1"] ∧
    parse .strict "\u00a01" = .error ⟨.expectedValue, 0, 1, 1⟩ :=
  ⟨by cbv, by cbv⟩

end Runbook.Json
