import Mathlib.Data.List.Forall2
import Runbook.Capture
import Runbook.Json.Stream
import Runbook.Proofs.Json.Acceptance

/-!
# Values one after the other

A text that is made up of texts for values is read as these values, one by one: each value ends
where its own text ends, whatever comes next. Only of two numbers the second would go on with the
first, so that something has to stand between them.

The module introduces:

* `Json.IsSpaces`: white space of any kind, of which JSON knows a part only;
* `Json.Laid`: how texts may follow each other.

The main result is `Json.parseMany_joined`; `Json.wellFormed_of_parseMany` says that whatever is
read can be written and read again.
-/

namespace Runbook.Json

/-! ## White space -/

/-- White space of any kind, or nothing. -/
def IsSpaces (cs : List Char) : Prop :=
  ∀ c ∈ cs, Text.isSpace c = true

/-- The white space of JSON is white space. -/
theorem isSpace_of_isBlankChar {c : Char} (h : isBlankChar c = true) : Text.isSpace c = true := by
  simp only [isBlankChar, Bool.or_eq_true, beq_iff_eq] at h
  rcases h with ((rfl | rfl) | rfl) | rfl <;> decide

theorem IsBlank.isSpaces {cs : List Char} (h : IsBlank cs) : IsSpaces cs :=
  fun c hc => isSpace_of_isBlankChar (h c hc)

/-- No character that a number may go on with is white space. -/
theorem isSpace_of_isNumberChar {c : Char} (h : isNumberChar c = true) :
    Text.isSpace c = false := by
  have hcode : 46 ≤ c.toNat ∧ c.toNat ≤ 101 := by
    simp only [isNumberChar, Text.isAsciiDigit, Bool.or_eq_true, Bool.and_eq_true,
      decide_eq_true_eq, beq_iff_eq] at h
    rcases h with ((⟨hlow, hhigh⟩ | rfl) | rfl) | rfl
    · have hlow' : 48 ≤ c.toNat := hlow
      have hhigh' : c.toNat ≤ 57 := hhigh
      omega
    · decide
    · decide
    · decide
  simp only [Text.isSpace, Bool.or_eq_false_iff, Bool.and_eq_false_iff, decide_eq_false_iff_not,
    beq_eq_false_iff_ne]
  omega

/-- A number ends before white space. -/
theorem endsNumber_space {c : Char} (h : Text.isSpace c = true) (cs : List Char) :
    EndsNumber (c :: cs) := by
  refine endsNumber_cons ?_ cs
  cases hc : isNumberChar c with
  | false => rfl
  | true =>
    rw [isSpace_of_isNumberChar hc] at h
    cases h

theorem endsNumber_of_spaces {cs rest : List Char} (h : IsSpaces cs) (hrest : EndsNumber rest) :
    EndsNumber (cs ++ rest) := by
  cases cs with
  | nil => exact hrest
  | cons c cs => exact endsNumber_space (h c List.mem_cons_self) _

/-! ## First characters -/

/-- A value that is a number. -/
def IsNumeric (j : Json) : Prop :=
  ∃ literal, j = .number literal

/-- A value does not begin with white space of any kind. -/
theorem Denotes.not_isSpace_first {cs : List Char} {j : Json} (h : Denotes cs j) :
    ∃ c tail, cs = c :: tail ∧ Text.isSpace c = false := by
  cases h with
  | word hword =>
    simp only [words, List.mem_cons, List.not_mem_nil, or_false, Prod.mk.injEq] at hword
    rcases hword with ⟨rfl, -⟩ | ⟨rfl, -⟩ | ⟨rfl, -⟩ <;> exact ⟨_, _, rfl, by decide⟩
  | number hnumber =>
    obtain ⟨c, tail, hc, rfl | rfl⟩ := hnumber.first
    · exact ⟨c, tail, rfl, isSpace_of_isNumberChar (by simp [isNumberChar, hc])⟩
    · exact ⟨'-', c :: tail, rfl, by decide⟩
  | string => exact ⟨_, _, rfl, by decide⟩
  | emptyArray => exact ⟨_, _, rfl, by decide⟩
  | array => exact ⟨_, _, rfl, by decide⟩
  | emptyObject => exact ⟨_, _, rfl, by decide⟩
  | object => exact ⟨_, _, rfl, by decide⟩

/-- A text that is read as a value is not blank. -/
theorem not_isBlank_of_parse {s : String} {j : Json} (h : parse .strict s = .ok j) :
    Text.isBlank s = false := by
  obtain ⟨before, body, after, -, -, hbody, hs⟩ := denotesWhole_of_parse h
  obtain ⟨c, tail, rfl, hc⟩ := hbody.not_isSpace_first
  refine List.all_eq_false.mpr ⟨c, ?_, by simp [hc]⟩
  rw [hs]
  simp

/-- A number ends before every value that is no number. -/
theorem Denotes.endsNumber {cs : List Char} {j : Json} (h : Denotes cs j) (hj : ¬IsNumeric j)
    (rest : List Char) : EndsNumber (cs ++ rest) := by
  cases h with
  | word hword =>
    simp only [words, List.mem_cons, List.not_mem_nil, or_false, Prod.mk.injEq] at hword
    rcases hword with ⟨rfl, -⟩ | ⟨rfl, -⟩ | ⟨rfl, -⟩ <;> exact endsNumber_cons (by decide) _
  | number => exact absurd ⟨_, rfl⟩ hj
  | string => exact endsNumber_cons (by decide) _
  | emptyArray => exact endsNumber_cons (by decide) _
  | array => exact endsNumber_cons (by decide) _
  | emptyObject => exact endsNumber_cons (by decide) _
  | object => exact endsNumber_cons (by decide) _

theorem ends_of_not_isNumeric {j : Json} (h : ¬IsNumeric j) (rest : List Char) : Ends j rest := by
  cases j with
  | number literal => exact absurd ⟨literal, rfl⟩ h
  | _ => trivial

/-! ## Texts one after the other -/

/-- Texts, the values that they stand for, and the text that they make up together: some white space
may follow every text but the last, and does so between two numbers. -/
inductive Laid : List String → List Json → List Char → Prop
  | last (text : String) (value : Json) : Laid [text] [value] text.toList
  | cons {text next : String} {value second : Json} {texts : List String} {values : List Json}
      {gap rest : List Char} :
      IsSpaces gap → (gap = [] → ¬(IsNumeric value ∧ IsNumeric second)) →
      Laid (next :: texts) (second :: values) rest →
      Laid (text :: next :: texts) (value :: second :: values) (text.toList ++ (gap ++ rest))

/-- Texts with a line end between neighbours are laid out so. -/
theorem laid_joinWith {texts : List String} {values : List Json} (hsome : texts ≠ [])
    (hlength : texts.length = values.length) :
    Laid texts values (Text.joinWith ['\n'] (texts.map String.toList)) := by
  induction texts generalizing values with
  | nil => exact absurd rfl hsome
  | cons text texts ih =>
    obtain ⟨value, values, rfl⟩ : ∃ value others, values = value :: others :=
      List.exists_cons_of_length_eq_add_one hlength.symm
    cases texts with
    | nil =>
      obtain rfl : values = [] := List.eq_nil_of_length_eq_zero (by simpa using hlength.symm)
      exact .last text value
    | cons next texts =>
      obtain ⟨second, values, rfl⟩ : ∃ second others, values = second :: others :=
        List.exists_cons_of_length_eq_add_one (Nat.succ.inj hlength).symm
      have hgap : IsSpaces ['\n'] := (isBlank_newLine 0 0).isSpaces
      have hrest : Laid (next :: texts) (second :: values)
          (Text.joinWith ['\n'] ((next :: texts).map String.toList)) :=
        ih (List.cons_ne_nil _ _) (Nat.succ.inj hlength)
      rw [List.map_cons, List.map_cons, joinWith_cons_cons]
      exact .cons hgap (fun h => absurd h (List.cons_ne_nil _ _)) hrest

/-! ## Reading them -/

/-- White space at the front of a text changes nothing. -/
theorem readMany_spaces {blank : List Char} (h : IsSpaces blank) (fuel : Nat) (cs : List Char) :
    readMany fuel (blank ++ cs) = readMany fuel cs := by
  cases fuel with
  | zero => rfl
  | succ fuel => rw [readMany, readMany, List.dropWhile_append_of_pos h]

/-- A value at the front of a text is read up to where its own text ends. -/
theorem readMany_denotes {cs rest : List Char} {j : Json} (h : Denotes cs j)
    (hrest : Ends j rest) (fuel : Nat) :
    readMany (fuel + 1) (cs ++ rest) = (readMany fuel rest).map (j :: ·) := by
  have hread := readFront_of_denotes h hrest
  obtain ⟨c, tail, rfl, hc⟩ := h.not_isSpace_first
  rw [List.cons_append] at hread ⊢
  rw [readMany, List.dropWhile_cons_of_neg (by rw [hc]; decide)]
  simp only [hread]

/-- Texts that are laid out begin with the first of them. -/
theorem Laid.front {text : String} {texts : List String} {values : List Json} {cs : List Char}
    (h : Laid (text :: texts) values cs) : ∃ rest, cs = text.toList ++ rest := by
  cases h with
  | last => exact ⟨[], (List.append_nil _).symm⟩
  | @cons _ _ _ _ _ _ gap rest => exact ⟨gap ++ rest, rfl⟩

/-- A value ends before the gap after it, or before the next text if there is no gap. -/
theorem ends_of_laid {next : String} {value second : Json} {texts : List String}
    {values : List Json} {gap rest : List Char} (hgap : IsSpaces gap)
    (hapart : gap = [] → ¬(IsNumeric value ∧ IsNumeric second))
    (hrest : Laid (next :: texts) (second :: values) rest)
    (hnext : DenotesWhole next.toList second) {after : List Char} (hafter : IsBlank after) :
    Ends value (after ++ (gap ++ rest)) := by
  by_cases hvalue : IsNumeric value
  · refine ends_of_endsNumber (endsNumber_of_spaces hafter.isSpaces ?_) value
    cases gap with
    | cons c gap => exact endsNumber_space (hgap c List.mem_cons_self) _
    | nil =>
      -- Nothing stands between the two, so that the next value is no number.
      have hsecond : ¬IsNumeric second := fun h => hapart rfl ⟨hvalue, h⟩
      obtain ⟨others, rfl⟩ := hrest.front
      obtain ⟨blank, body, last, hblank, -, hbody, hcs⟩ := hnext
      rw [hcs, List.nil_append, List.append_assoc, List.append_assoc]
      exact endsNumber_of_spaces hblank.isSpaces (hbody.endsNumber hsecond _)
  · exact ends_of_not_isNumeric hvalue _

/-- Texts that are laid out are read one after the other, if the fuel lasts. -/
theorem readMany_of_laid {texts : List String} {values : List Json} {cs : List Char}
    (h : Laid texts values cs)
    (hread : List.Forall₂ (fun text value => DenotesWhole text.toList value) texts values)
    {fuel : Nat} (hfuel : cs.length < fuel) : readMany fuel cs = .ok values := by
  induction h generalizing fuel with
  | last text value =>
    obtain ⟨fuel, rfl⟩ : ∃ n, fuel = n + 1 := Nat.exists_eq_add_one_of_ne_zero (by omega)
    obtain ⟨before, body, after, hbefore, hafter, hbody, hcs⟩ := (List.forall₂_cons.mp hread).1
    -- Only white space is left after the last value, with which the reader ends.
    have hend : readMany fuel after = .ok [] := by
      have hblank := readMany_spaces hafter.isSpaces fuel []
      rw [List.append_nil] at hblank
      rw [hblank]
      cases fuel <;> rfl
    have hends : Ends value after := by
      have hnil : EndsNumber [] := fun c hc => by cases hc
      have hspaces := endsNumber_of_spaces hafter.isSpaces hnil
      rw [List.append_nil] at hspaces
      exact ends_of_endsNumber hspaces value
    rw [hcs, readMany_spaces hbefore.isSpaces, readMany_denotes hbody hends, hend]
    rfl
  | @cons text next value second texts values gap rest hgap hapart hrest ih =>
    obtain ⟨fuel, rfl⟩ : ∃ n, fuel = n + 1 := Nat.exists_eq_add_one_of_ne_zero (by omega)
    obtain ⟨hfirst, hothers⟩ := List.forall₂_cons.mp hread
    obtain ⟨before, body, after, hbefore, hafter, hbody, hcs⟩ := hfirst
    have hends := ends_of_laid hgap hapart hrest (List.forall₂_cons.mp hothers).1 hafter
    -- The text of the value has a character at least, which pays for reading it.
    have hshort : rest.length < fuel := by
      obtain ⟨c, tail, rfl, -⟩ := hbody.first
      simp only [hcs, List.length_append, List.length_cons] at hfuel
      omega
    calc readMany (fuel + 1) (text.toList ++ (gap ++ rest))
      _ = readMany (fuel + 1) (before ++ (body ++ (after ++ (gap ++ rest)))) := by
        rw [hcs, List.append_assoc, List.append_assoc]
      _ = (readMany fuel (after ++ (gap ++ rest))).map (value :: ·) := by
        rw [readMany_spaces hbefore.isSpaces, readMany_denotes hbody hends]
      _ = (readMany fuel rest).map (value :: ·) := by
        rw [readMany_spaces hafter.isSpaces, readMany_spaces hgap]
      _ = .ok (value :: second :: values) := by
        rw [ih hothers hshort]
        rfl

theorem parseMany_of_laid {texts : List String} {values : List Json} {cs : List Char}
    (h : Laid texts values cs)
    (hread : List.Forall₂ (fun text value => DenotesWhole text.toList value) texts values) :
    parseMany (String.ofList cs) = .ok values := by
  have hmany : readMany (cs.length + 1) cs = .ok values :=
    readMany_of_laid h hread (Nat.lt_succ_self _)
  rw [parseMany, String.toList_ofList, hmany]
  cases h <;> rfl

/-- Texts that are each read as a value are read as these values, in order and none merged, split or
lost, once they are combined as the texts of a loop's items are. So they are with any white space
between neighbours, and without any unless both neighbours are numbers. -/
theorem parseMany_joined {texts : List String} {values : List Json} (hsome : texts ≠ [])
    (hread : List.Forall₂ (fun text value => parse .strict text = .ok value) texts values) :
    (∀ format, parseMany (Capture.combine texts format).value = .ok values) ∧
      ∀ cs, Laid texts values cs → parseMany (String.ofList cs) = .ok values := by
  have hdenotes : List.Forall₂ (fun text value => DenotesWhole text.toList value) texts values :=
    hread.imp fun _ _ h => denotesWhole_of_parse h
  refine ⟨fun format => ?_, fun cs hcs => parseMany_of_laid hcs hdenotes⟩
  -- The texts of a loop's items are combined with a line end between neighbours.
  exact parseMany_of_laid (laid_joinWith hsome hread.length_eq) hdenotes

/-- A number and an array are read from their texts, which are combined or stand next to each other.
-/
theorem parseMany_joined_sample :
    parse .strict "1.50" = .ok (.number "1.50") ∧ parse .strict "[ ]\n" = .ok (.array []) ∧
      parseMany (Capture.combine ["1.50", "[ ]\n"] "json").value =
        .ok [.number "1.50", .array []] ∧
      parseMany (String.ofList ("1.50".toList ++ ([] ++ "[ ]\n".toList))) =
        .ok [.number "1.50", .array []] := by
  have hnumber : parse .strict "1.50" = .ok (.number "1.50") :=
    parse_of_denotes
      ⟨[], _, [], isBlank_nil, isBlank_nil, .number isNumber_fraction, rfl⟩
  have harray : parse .strict "[ ]\n" = .ok (.array []) := by
    refine parse_of_denotes ⟨[], ['[', ' ', ']'], ['\n'], isBlank_nil, isBlank_newLine 0 0, ?_, rfl⟩
    exact .emptyArray (by simp [IsBlank, isBlankChar] : IsBlank [' '])
  obtain ⟨hcombined, hlaid⟩ :=
    parseMany_joined (List.cons_ne_nil _ _) (.cons hnumber (.cons harray .nil))
  refine ⟨hnumber, harray, hcombined "json", hlaid _ (.cons ?_ ?_ (.last _ _))⟩
  · intro c hc
    cases hc
  · rintro - ⟨-, literal, heq⟩
    cases heq

/-! ## Values that are read -/

theorem wellFormed_of_readMany {fuel : Nat} {cs : List Char} {values : List Json}
    (h : readMany fuel cs = .ok values) : ∀ j ∈ values, j.WellFormed := by
  induction fuel generalizing cs values with
  | zero =>
    cases h
    simp
  | succ fuel ih =>
    rw [readMany] at h
    split at h
    · cases h
      simp
    · split at h
      · cases h
      · rename_i value rest hread
        obtain ⟨text, htext, -⟩ := denotes_of_readFront hread
        obtain ⟨others, hothers, rfl⟩ := exists_of_map_eq_ok h
        intro j hj
        rcases List.mem_cons.mp hj with rfl | hj
        · exact wellFormed_of_denotes htext
        · exact ih hothers j hj

/-- The values of a text are well-formed, whatever stands between them. -/
theorem wellFormed_of_parseMany {s : String} {values : List Json}
    (h : parseMany s = .ok values) : ∀ j ∈ values, j.WellFormed := by
  unfold parseMany at h
  split at h
  · cases h
  · cases h
  · rename_i read _ hread
    cases h
    exact wellFormed_of_readMany hread

end Runbook.Json
