import Runbook.Proofs.Json.Grammar

/-!
# The strict reader reads what the grammar allows

A text that denotes a value is read to its end, whatever stands after it, and gives that value. The
reader is greedy and knows nothing of derivations: what has to be shown is that it stops where the
text stops, and that its fuel lasts.

The main results are `Json.readFront_of_denotes` and `Json.parse_of_denotes`.
-/

namespace Runbook.Json

/-! ## White space -/

theorem skipBlanks_append {blank : List Char} (h : IsBlank blank) (cs : List Char) :
    skipBlanks (blank ++ cs) = skipBlanks cs :=
  List.dropWhile_append_of_pos h

theorem skipBlanks_cons {c : Char} (h : isBlankChar c = false) (cs : List Char) :
    skipBlanks (c :: cs) = c :: cs := by
  rw [skipBlanks, List.dropWhile_cons, h]
  rfl

/-- White space is skipped up to the character after it. -/
theorem skipBlanks_of_blank {blank : List Char} (h : IsBlank blank) {c : Char}
    (hc : isBlankChar c = false) (cs : List Char) :
    skipBlanks (blank ++ c :: cs) = c :: cs := by
  rw [skipBlanks_append h, skipBlanks_cons hc]

theorem skipBlanks_eq_nil {blank : List Char} (h : IsBlank blank) : skipBlanks blank = [] := by
  have hskip := skipBlanks_append h []
  rwa [List.append_nil] at hskip

/-- A number does not go on with white space. -/
theorem isNumberChar_of_blank {c : Char} (h : isBlankChar c = true) : isNumberChar c = false := by
  simp only [isBlankChar, Bool.or_eq_true, beq_iff_eq] at h
  rcases h with ((rfl | rfl) | rfl) | rfl <;> decide

/-- A number ends before white space and before what follows it. -/
theorem endsNumber_of_blank {blank : List Char} (h : IsBlank blank) {rest : List Char}
    (hrest : EndsNumber rest) : EndsNumber (blank ++ rest) := by
  cases blank with
  | nil => exact hrest
  | cons c blank =>
    intro d hd
    obtain rfl : c = d := by simpa using hd
    exact isNumberChar_of_blank (h c List.mem_cons_self)

theorem endsNumber_cons {c : Char} (h : isNumberChar c = false) (cs : List Char) :
    EndsNumber (c :: cs) := by
  intro d hd
  obtain rfl : c = d := by simpa using hd
  exact h

theorem ends_of_endsNumber {rest : List Char} (h : EndsNumber rest) (j : Json) : Ends j rest := by
  cases j <;> first | exact h | trivial

/-! ## Numbers -/

/-- A text that digits in front of it do not go on with. -/
def EndsDigits (cs : List Char) : Prop :=
  ∀ c ∈ cs.head?, Text.isAsciiDigit c = false

theorem endsDigits_cons {c : Char} (h : Text.isAsciiDigit c = false) (cs : List Char) :
    EndsDigits (c :: cs) := by
  intro d hd
  obtain rfl : c = d := by simpa using hd
  exact h

theorem EndsNumber.endsDigits {cs : List Char} (h : EndsNumber cs) : EndsDigits cs := by
  intro c hc
  have hnot := h c hc
  simp only [isNumberChar, Bool.or_eq_false_iff] at hnot
  exact hnot.1.1.1

section Digits

variable {cs rest : List Char}

/-- As many digits are taken as there are. -/
theorem takeWhile_digits (h : AllDigits cs) (hrest : EndsDigits rest) :
    (cs ++ rest).takeWhile Text.isAsciiDigit = cs := by
  rw [List.takeWhile_append_of_pos h]
  cases rest with
  | nil => simp
  | cons c rest => simp [hrest c rfl]

theorem dropWhile_digits (h : AllDigits cs) (hrest : EndsDigits rest) :
    (cs ++ rest).dropWhile Text.isAsciiDigit = rest := by
  rw [List.dropWhile_append_of_pos h]
  cases rest with
  | nil => rfl
  | cons c rest => rw [List.dropWhile_cons, hrest c rfl]; rfl

end Digits

theorem wholePart?_append {whole rest : List Char} (h : IsWhole whole) (hrest : EndsDigits rest) :
    wholePart? (whole ++ rest) = some (whole, rest) := by
  cases h with
  | zero => rfl
  | digits hzero hfirst hall =>
    rw [List.cons_append, wholePart?, if_neg hzero, if_pos hfirst, takeWhile_digits hall hrest,
      dropWhile_digits hall hrest]

theorem fractionPart_append {fraction rest : List Char} (h : IsFraction fraction)
    (hrest : EndsDigits rest) (hpoint : ∀ c ∈ rest.head?, c ≠ '.') :
    fractionPart (fraction ++ rest) = (fraction, rest) := by
  cases h with
  | none =>
    cases rest with
    | nil => rfl
    | cons c rest =>
      have hc : c ≠ '.' := hpoint c rfl
      rw [List.nil_append, fractionPart]
      intro d ds heq
      exact hc (List.head_eq_of_cons_eq heq)
  | digits hfirst hall =>
    simp only [List.cons_append, fractionPart, hfirst, if_true, takeWhile_digits hall hrest,
      dropWhile_digits hall hrest]

/-- The sign of an exponent is taken, and nothing else for one. -/
theorem signPart_append {sign : List Char} (h : sign ∈ [[], ['+'], ['-']]) {c : Char}
    (hc : Text.isAsciiDigit c = true) (cs : List Char) :
    signPart (sign ++ c :: cs) = (sign, c :: cs) := by
  have hplus : c ≠ '+' := ne_of_apply_ne Text.isAsciiDigit (by rw [hc]; decide)
  have hminus : c ≠ '-' := ne_of_apply_ne Text.isAsciiDigit (by rw [hc]; decide)
  simp only [List.mem_cons, List.not_mem_nil, or_false] at h
  rcases h with rfl | rfl | rfl
  · simp [signPart, hplus, hminus]
  · rfl
  · rfl

theorem exponentPart_append {exponent rest : List Char} (h : IsExponent exponent)
    (hrest : EndsNumber rest) : exponentPart (exponent ++ rest) = (exponent, rest) := by
  cases h with
  | none =>
    cases rest with
    | nil => rfl
    | cons c rest =>
      have hc := hrest c rfl
      simp only [isNumberChar, Bool.or_eq_false_iff, beq_eq_false_iff_ne] at hc
      rw [List.nil_append, exponentPart, if_neg (by simp [hc])]
  | @digits e sign c cs he hsign hc hall =>
    have hdigits : AllDigits (c :: cs) := by
      intro d hd
      rcases List.mem_cons.mp hd with rfl | hd
      · exact hc
      · exact hall d hd
    have hsplit := signPart_append hsign hc (cs ++ rest)
    have htake := takeWhile_digits hdigits hrest.endsDigits
    have hdrop := dropWhile_digits hdigits hrest.endsDigits
    rw [List.cons_append] at htake hdrop
    simp only [List.cons_append, List.append_assoc, exponentPart, if_pos he, hsplit, htake, hdrop,
      List.isEmpty_cons, Bool.false_eq_true, if_false]

/-- An exponent, and what ends a number, begin with no digit and no point. -/
theorem head_exponent {exponent rest : List Char} (h : IsExponent exponent)
    (hrest : EndsNumber rest) :
    ∀ c ∈ (exponent ++ rest).head?, Text.isAsciiDigit c = false ∧ c ≠ '.' := by
  intro c hc
  cases h with
  | none =>
    have hnot := hrest c hc
    simp only [isNumberChar, Bool.or_eq_false_iff, beq_eq_false_iff_ne] at hnot
    exact ⟨hnot.1.1.1, hnot.1.1.2⟩
  | @digits e sign d cs he hsign hd hall =>
    obtain rfl : e = c := by simpa using hc
    rcases he with rfl | rfl <;> decide

/-- A fraction, and what follows it, begin with no digit. -/
theorem head_fraction {fraction exponent rest : List Char} (hf : IsFraction fraction)
    (he : IsExponent exponent) (hrest : EndsNumber rest) :
    EndsDigits (fraction ++ (exponent ++ rest)) := by
  cases hf with
  | none =>
    intro c hc
    exact (head_exponent he hrest c hc).1
  | digits => exact endsDigits_cons (by decide) _

/-- The whole part of a number begins with a digit. -/
theorem IsWhole.first {whole : List Char} (h : IsWhole whole) :
    ∃ c cs, whole = c :: cs ∧ Text.isAsciiDigit c = true := by
  cases h with
  | zero => exact ⟨'0', [], rfl, by decide⟩
  | digits _ hfirst _ => exact ⟨_, _, rfl, hfirst⟩

theorem takeNumber?_append {sign whole fraction exponent rest : List Char}
    (h : NumberParts sign whole fraction exponent) (hrest : EndsNumber rest) :
    takeNumber? (sign ++ (whole ++ (fraction ++ (exponent ++ rest)))) =
      some (sign ++ whole, fraction ++ exponent, rest) := by
  have hexponent := head_exponent h.exponent hrest
  have hdigits := head_fraction h.fraction h.exponent hrest
  have hwhole := wholePart?_append h.whole hdigits
  have hfraction := fractionPart_append h.fraction
    (fun c hc => (hexponent c hc).1) (fun c hc => (hexponent c hc).2)
  have hlast := exponentPart_append h.exponent hrest
  rcases h.sign with rfl | rfl
  -- Without a sign the number begins with a digit, which is none.
  · obtain ⟨c, cs, rfl, hc⟩ := h.whole.first
    have hminus : c ≠ '-' := ne_of_apply_ne Text.isAsciiDigit (by rw [hc]; decide)
    rw [List.nil_append, takeNumber?]
    · simp only [hwhole, Option.map_some, hfraction, hlast, List.nil_append]
    · intro tail heq
      exact hminus (List.head_eq_of_cons_eq heq)
  · simp only [List.cons_append, List.nil_append, takeNumber?, hwhole, Option.map_some, hfraction,
      hlast]

/-! ## Scalars -/

/-- A number begins with a digit, or with a minus sign and a digit. -/
theorem IsNumber.first {cs : List Char} (h : IsNumber cs) :
    ∃ c tail, Text.isAsciiDigit c = true ∧ (cs = c :: tail ∨ cs = '-' :: c :: tail) := by
  obtain ⟨sign, whole, fraction, exponent, hparts, rfl⟩ := h
  obtain ⟨c, tail, rfl, hc⟩ := hparts.whole.first
  rcases hparts.sign with rfl | rfl
  · exact ⟨c, tail ++ (fraction ++ exponent), hc, .inl rfl⟩
  · exact ⟨c, tail ++ (fraction ++ exponent), hc, .inr rfl⟩

/-- No word begins as a number does. -/
theorem find_words_of_number {cs : List Char} (h : IsNumber cs) (rest : List Char) :
    (words.find? fun (word, _) => word.isPrefixOf (cs ++ rest)) = none ∧
      constantWords.find? (·.isPrefixOf (cs ++ rest)) = none := by
  obtain ⟨c, tail, hc, hcs⟩ := h.first
  have hne (d : Char) (hd : Text.isAsciiDigit d = false) : (d == c) = false := by
    refine beq_false_of_ne ?_
    rintro rfl
    cases hc.symm.trans hd
  -- The words begin with letters, or with a minus sign and a letter.
  have hletters := And.intro (hne 'n' (by decide)) (hne 't' (by decide))
  have hcapitals := And.intro (hne 'N' (by decide)) (hne 'I' (by decide))
  have hothers := And.intro (hne 'f' (by decide)) (hne '-' (by decide))
  rcases hcs with rfl | rfl
  · simp [words, constantWords, List.isPrefixOf, hletters, hcapitals, hothers]
  · simp [words, constantWords, List.isPrefixOf, hcapitals]

theorem readScalar_number {cs rest : List Char} (h : IsNumber cs) (hrest : EndsNumber rest) :
    readScalar .strict (cs ++ rest) = .ok (.number (String.ofList cs), rest) := by
  obtain ⟨hwords, hconstants⟩ := find_words_of_number h rest
  obtain ⟨sign, whole, fraction, exponent, hparts, rfl⟩ := h
  have htake := takeNumber?_append hparts hrest
  simp only [List.append_assoc] at hwords hconstants ⊢
  simp only [readScalar, hwords, hconstants, htake, Dialect.strict, Bool.false_and,
    Bool.false_eq_true, if_false, List.append_assoc]

theorem readScalar_word {cs : List Char} {j : Json} (h : (cs, j) ∈ words) (rest : List Char) :
    readScalar .strict (cs ++ rest) = .ok (j, rest) := by
  simp only [words, List.mem_cons, List.not_mem_nil, or_false, Prod.mk.injEq] at h
  rcases h with ⟨rfl, rfl⟩ | ⟨rfl, rfl⟩ | ⟨rfl, rfl⟩ <;> rfl

/-! ## Strings -/

theorem readCodes_append {body : List Char} {codes : List Nat} (h : Spells body codes)
    (whole rest : List Char) : readCodes whole (body ++ '"' :: rest) = .ok (codes, rest) := by
  induction h with
  | nil => rw [List.nil_append, readCodes.eq_def]; rfl
  | @plain c cs codes hquote hescape hprintable _ ih =>
    rw [List.cons_append, readCodes.eq_def]
    simp only [if_neg hquote, if_neg hescape, if_neg (Nat.not_lt.mpr hprintable), ih]
    rfl
  | @letter e c cs codes hletter _ ih =>
    have hu : e ≠ 'u' := by
      rintro rfl
      cases hletter
    rw [List.cons_append, List.cons_append, readCodes.eq_def]
    simp only [if_neg hu, hletter, ih]
    rfl
  | @number a b c d n cs codes hnumber _ ih =>
    -- What follows the digits is the rest of the string, so that there is a further character.
    obtain ⟨next, after, hnext⟩ : ∃ next after, cs ++ '"' :: rest = next :: after := by
      cases cs <;> exact ⟨_, _, rfl⟩
    rw [List.cons_append, List.cons_append, readCodes.eq_def]
    simp only [List.cons_append, hnumber, hnext] at ih ⊢
    rw [if_neg (by decide), if_pos trivial, if_pos trivial, ih]
    rfl

theorem readString_quoted {body : List Char} {codes : List Nat} (h : Spells body codes)
    (whole rest : List Char) :
    readString whole (body ++ '"' :: rest) = .ok (spelt codes, rest) := by
  rw [readString, readCodes_append h]
  rfl

/-! ## Values -/

/-- A value begins with a character that is neither white space nor a closing bracket. -/
theorem Denotes.first {cs : List Char} {j : Json} (h : Denotes cs j) :
    ∃ c tail, cs = c :: tail ∧ isBlankChar c = false ∧ c ≠ ']' := by
  cases h with
  | word hword =>
    simp only [words, List.mem_cons, List.not_mem_nil, or_false, Prod.mk.injEq] at hword
    rcases hword with ⟨rfl, -⟩ | ⟨rfl, -⟩ | ⟨rfl, -⟩ <;>
      exact ⟨_, _, rfl, by decide, by decide⟩
  | number hnumber =>
    obtain ⟨c, tail, hc, rfl | rfl⟩ := hnumber.first
    · refine ⟨c, tail, rfl, ?_, ne_of_apply_ne Text.isAsciiDigit (by rw [hc]; decide)⟩
      cases hblank : isBlankChar c with
      | false => rfl
      | true =>
        have hnot := isNumberChar_of_blank hblank
        simp [isNumberChar, hc] at hnot
    · exact ⟨'-', c :: tail, rfl, by decide, by decide⟩
  | string => exact ⟨_, _, rfl, by decide, by decide⟩
  | emptyArray => exact ⟨_, _, rfl, by decide, by decide⟩
  | array => exact ⟨_, _, rfl, by decide, by decide⟩
  | emptyObject => exact ⟨_, _, rfl, by decide, by decide⟩
  | object => exact ⟨_, _, rfl, by decide, by decide⟩

theorem DenotesItems.first {cs : List Char} {items : List Json} (h : DenotesItems cs items) :
    ∃ c tail, cs = c :: tail ∧ isBlankChar c = false ∧ c ≠ ']' := by
  cases h with
  | last hitem _ =>
    obtain ⟨c, tail, rfl, hc⟩ := hitem.first
    exact ⟨c, _, rfl, hc⟩
  | cons hitem _ _ _ =>
    obtain ⟨c, tail, rfl, hc⟩ := hitem.first
    exact ⟨c, _, rfl, hc⟩

theorem DenotesMembers.first {cs : List Char} {members : List (String × Json)}
    (h : DenotesMembers cs members) : ∃ tail, cs = '"' :: tail := by
  cases h with
  | last hmember _ => cases hmember; exact ⟨_, rfl⟩
  | cons hmember _ _ _ => cases hmember; exact ⟨_, rfl⟩

/-- The reader with some fuel reads every value whose text is short enough. -/
def ReadsValues (fuel : Nat) : Prop :=
  ∀ {cs : List Char} {j : Json} {rest : List Char}, Denotes cs j → Ends j rest →
    2 * cs.length ≤ fuel → readValue .strict fuel (cs ++ rest) = .ok (j, rest)

/-- The reader with some fuel reads all items whose text is short enough. -/
def ReadsItems (fuel : Nat) : Prop :=
  ∀ {cs : List Char} {items : List Json} {rest : List Char}, DenotesItems cs items →
    2 * cs.length + 1 ≤ fuel → readItems .strict fuel (cs ++ ']' :: rest) = .ok (items, rest)

/-- The reader with some fuel reads all members whose text is short enough. -/
def ReadsMembers (fuel : Nat) : Prop :=
  ∀ {cs : List Char} {members : List (String × Json)} {rest : List Char},
    DenotesMembers cs members → 2 * cs.length + 1 ≤ fuel →
    readMembers .strict fuel (cs ++ '\x7d' :: rest) = .ok (members, rest)

section Fuel

variable {fuel : Nat}

/-- What is neither a string nor a collection is a word or a number. -/
theorem readValue_scalar {c : Char} {cs tail : List Char} (hcs : cs = c :: tail)
    (hquote : c ≠ '"') (hbrace : c ≠ '\x7b') (hbracket : c ≠ '[') :
    readValue .strict (fuel + 1) cs = readScalar .strict cs := by
  rw [hcs, readValue, if_neg hquote, if_neg hbrace, if_neg hbracket]

theorem readValue_emptyArray {cs rest : List Char} (h : skipBlanks cs = ']' :: rest) :
    readValue .strict (fuel + 1) ('[' :: cs) = .ok (.array [], rest) := by
  rw [readValue, if_neg (by decide), if_neg (by decide), if_pos rfl]
  simp only [h]

theorem readValue_array {c : Char} {cs tail : List Char} (h : skipBlanks cs = c :: tail)
    (hc : c ≠ ']') :
    readValue .strict (fuel + 1) ('[' :: cs) =
      (readItems .strict fuel (c :: tail)).map fun (items, rest) => (.array items, rest) := by
  rw [readValue, if_neg (by decide), if_neg (by decide), if_pos rfl, h]
  split
  · rename_i heq
    exact absurd (List.head_eq_of_cons_eq heq) hc
  · rfl

theorem readValue_emptyObject {cs rest : List Char} (h : skipBlanks cs = '\x7d' :: rest) :
    readValue .strict (fuel + 1) ('\x7b' :: cs) = .ok (.object [], rest) := by
  rw [readValue, if_neg (by decide), if_pos rfl]
  simp only [h]

theorem readValue_object {c : Char} {cs tail : List Char} (h : skipBlanks cs = c :: tail)
    (hc : c ≠ '\x7d') :
    readValue .strict (fuel + 1) ('\x7b' :: cs) =
      (readMembers .strict fuel (c :: tail)).map fun (members, rest) =>
        (.object (collapse members), rest) := by
  rw [readValue, if_neg (by decide), if_pos rfl, h]
  split
  · rename_i heq
    exact absurd (List.head_eq_of_cons_eq heq) hc
  · rfl

/-- An array is read if its items are. -/
theorem readsArray (hitems : ReadsItems fuel) {blank cs rest : List Char} {items : List Json}
    (hblank : IsBlank blank) (hcs : DenotesItems cs items)
    (hfuel : 2 * ('[' :: (blank ++ (cs ++ [']']))).length ≤ fuel + 1) :
    readValue .strict (fuel + 1) ('[' :: (blank ++ (cs ++ [']'])) ++ rest) =
      .ok (.array items, rest) := by
  have hread : readItems .strict fuel (cs ++ ']' :: rest) = .ok (items, rest) := by
    refine hitems hcs ?_
    -- The brackets pay for the call that reads the items.
    simp only [List.length_cons, List.length_append] at hfuel
    omega
  obtain ⟨c, tail, rfl, hc, hclosing⟩ := hcs.first
  rw [List.cons_append] at hread
  simp only [List.cons_append, List.append_assoc, List.nil_append]
  rw [readValue_array (skipBlanks_of_blank hblank hc _) hclosing, hread]
  rfl

/-- An object is read if its members are. -/
theorem readsObject (hmembers : ReadsMembers fuel) {blank cs rest : List Char}
    {members : List (String × Json)} (hblank : IsBlank blank) (hcs : DenotesMembers cs members)
    (hfuel : 2 * ('\x7b' :: (blank ++ (cs ++ ['\x7d']))).length ≤ fuel + 1) :
    readValue .strict (fuel + 1) ('\x7b' :: (blank ++ (cs ++ ['\x7d'])) ++ rest) =
      .ok (.object (collapse members), rest) := by
  have hread : readMembers .strict fuel (cs ++ '\x7d' :: rest) = .ok (members, rest) := by
    refine hmembers hcs ?_
    simp only [List.length_cons, List.length_append] at hfuel
    omega
  obtain ⟨tail, rfl⟩ := hcs.first
  rw [List.cons_append] at hread
  simp only [List.cons_append, List.append_assoc, List.nil_append]
  rw [readValue_object (skipBlanks_of_blank hblank (by decide) _) (by decide), hread]
  rfl

/-- A value is read by its first character, whatever kind of text it is. -/
theorem readsValues_succ (hitems : ReadsItems fuel) (hmembers : ReadsMembers fuel) :
    ReadsValues (fuel + 1) := by
  intro cs j rest h hrest hfuel
  cases h with
  | word hword =>
    rw [← readScalar_word hword rest]
    simp only [words, List.mem_cons, List.not_mem_nil, or_false, Prod.mk.injEq] at hword
    rcases hword with ⟨rfl, -⟩ | ⟨rfl, -⟩ | ⟨rfl, -⟩ <;>
      exact readValue_scalar rfl (by decide) (by decide) (by decide)
  | number hnumber =>
    rw [← readScalar_number hnumber hrest]
    obtain ⟨c, tail, hc, hcs⟩ := hnumber.first
    have hne {d : Char} (hd : Text.isAsciiDigit d = false) : c ≠ d :=
      ne_of_apply_ne Text.isAsciiDigit (by rw [hc, hd]; decide)
    rcases hcs with rfl | rfl
    · exact readValue_scalar rfl (hne (by decide)) (hne (by decide)) (hne (by decide))
    · exact readValue_scalar rfl (by decide) (by decide) (by decide)
  | @string body codes hspells =>
    rw [quoted, List.cons_append, List.append_assoc, readValue, if_pos rfl]
    simp only [List.cons_append, List.nil_append, readString_quoted hspells]
    rfl
  | emptyArray hblank =>
    rw [List.cons_append, List.append_assoc]
    exact readValue_emptyArray (skipBlanks_of_blank hblank (by decide) rest)
  | array hblank hcs => exact readsArray hitems hblank hcs hfuel
  | emptyObject hblank =>
    rw [List.cons_append, List.append_assoc]
    exact readValue_emptyObject (skipBlanks_of_blank hblank (by decide) rest)
  | object hblank hcs => exact readsObject hmembers hblank hcs hfuel

/-- An item is read up to what follows it, white space, a comma or the closing bracket. -/
theorem readsItems_succ (hvalues : ReadsValues fuel) (hitems : ReadsItems fuel) :
    ReadsItems (fuel + 1) := by
  intro cs items rest h hfuel
  cases h with
  | @last cs blank item hitem hblank =>
    have hends : EndsNumber (blank ++ ']' :: rest) :=
      endsNumber_of_blank hblank (endsNumber_cons (by decide) rest)
    have hread := hvalues hitem (ends_of_endsNumber hends item) (by
      simp only [List.length_append] at hfuel
      omega)
    rw [List.append_assoc, readItems, hread]
    simp only [skipBlanks_of_blank hblank (show isBlankChar ']' = false by decide)]
  | @cons cs before after tail item items hitem hbefore hafter htail =>
    -- The comma pays for the call that reads the other items.
    have hends : EndsNumber (before ++ ',' :: (after ++ (tail ++ ']' :: rest))) :=
      endsNumber_of_blank hbefore (endsNumber_cons (by decide) _)
    simp only [List.length_append, List.length_cons] at hfuel
    have hread := hvalues hitem (ends_of_endsNumber hends item) (by omega)
    have hnext : readItems .strict fuel (tail ++ ']' :: rest) = .ok (items, rest) :=
      hitems htail (by omega)
    obtain ⟨c, more, rfl, hc, -⟩ := htail.first
    have hskip : skipBlanks (after ++ (c :: more ++ ']' :: rest)) = c :: more ++ ']' :: rest :=
      skipBlanks_of_blank hafter hc _
    simp only [List.append_assoc, List.cons_append] at hread hskip ⊢
    rw [readItems, hread]
    simp only [skipBlanks_of_blank hbefore (show isBlankChar ',' = false by decide), hskip]
    rw [List.cons_append] at hnext
    rw [hnext]
    rfl

/-- What the reader makes of the text after a member. -/
def afterMember (fuel : Nat) (member : String × Json) (next : List Char) :
    Reading (List (String × Json)) :=
  match next with
  | '\x7d' :: rest => .ok ([member], rest)
  | ',' :: rest =>
    (readMembers .strict fuel (skipBlanks rest)).map fun (members, rest) =>
      (member :: members, rest)
  | rest => .error ⟨.expectedComma, rest.length⟩

/-- A member is read up to what follows it. -/
theorem readMembers_member (hvalues : ReadsValues fuel) {cs next : List Char}
    {member : String × Json} (h : DenotesMember cs member) (hnext : EndsNumber next)
    (hfuel : 2 * cs.length ≤ fuel) :
    readMembers .strict (fuel + 1) (cs ++ next) = afterMember fuel member (skipBlanks next) := by
  obtain ⟨hspells, hbefore, hafter, hvalue⟩ := h
  rename_i body before after cs codes value
  simp only [quoted, List.length_append, List.length_cons, List.length_nil] at hfuel
  have hread := hvalues hvalue (ends_of_endsNumber hnext value) (by omega)
  obtain ⟨c, tail, rfl, hc, -⟩ := hvalue.first
  have hcolon := skipBlanks_of_blank hbefore (show isBlankChar ':' = false by decide)
    (after ++ (c :: tail ++ next))
  have hskip : skipBlanks (after ++ (c :: tail ++ next)) = c :: tail ++ next :=
    skipBlanks_of_blank hafter hc _
  simp only [quoted, List.cons_append, List.append_assoc, List.nil_append] at hread hcolon hskip ⊢
  rw [readMembers]
  simp only [readString_quoted hspells, hcolon, hskip, hread]
  rfl

theorem readsMembers_succ (hvalues : ReadsValues fuel) (hmembers : ReadsMembers fuel) :
    ReadsMembers (fuel + 1) := by
  intro cs members rest h hfuel
  cases h with
  | @last cs blank member hmember hblank =>
    have hends : EndsNumber (blank ++ '\x7d' :: rest) :=
      endsNumber_of_blank hblank (endsNumber_cons (by decide) rest)
    simp only [List.length_append] at hfuel
    rw [List.append_assoc, readMembers_member hvalues hmember hends (by omega),
      skipBlanks_of_blank hblank (by decide)]
    rfl
  | @cons cs before after tail member members hmember hbefore hafter htail =>
    have hends : EndsNumber (before ++ ',' :: (after ++ (tail ++ '\x7d' :: rest))) :=
      endsNumber_of_blank hbefore (endsNumber_cons (by decide) _)
    simp only [List.length_append, List.length_cons] at hfuel
    have hnext : readMembers .strict fuel (tail ++ '\x7d' :: rest) = .ok (members, rest) :=
      hmembers htail (by omega)
    obtain ⟨more, rfl⟩ := htail.first
    have hskip : skipBlanks (after ++ ('"' :: more ++ '\x7d' :: rest)) =
        '"' :: more ++ '\x7d' :: rest :=
      skipBlanks_of_blank hafter (by decide) _
    have hread := readMembers_member hvalues hmember hends (by omega)
    simp only [List.append_assoc, List.cons_append] at hread hskip hnext ⊢
    rw [hread, skipBlanks_of_blank hbefore (by decide)]
    simp only [afterMember, hskip, hnext]
    rfl

/-- The reader with some fuel reads all texts that are short enough: each call takes one from the
fuel and leaves a text that is shorter by more than half of that. -/
theorem reads (fuel : Nat) : ReadsValues fuel ∧ ReadsItems fuel ∧ ReadsMembers fuel := by
  induction fuel with
  | zero =>
    refine ⟨?_, ?_, ?_⟩
    · intro cs j rest h _ hfuel
      obtain ⟨c, tail, rfl, -⟩ := h.first
      simp at hfuel
    · intro cs items rest _ hfuel
      omega
    · intro cs members rest _ hfuel
      omega
  | succ fuel ih =>
    obtain ⟨hvalues, hitems, hmembers⟩ := ih
    exact ⟨readsValues_succ hitems hmembers, readsItems_succ hvalues hitems,
      readsMembers_succ hvalues hmembers⟩

end Fuel

/-! ## Whole texts -/

variable {cs rest : List Char} {j : Json}

/-- A value is read from the front of a text, up to where its own text ends. -/
theorem readFront_of_denotes (h : Denotes cs j) (hrest : Ends j rest) :
    readFront .strict (cs ++ rest) = .ok (j, rest) := by
  -- The fuel is counted from the whole text, of which this is a part.
  refine (reads _).1 h hrest ?_
  simp only [fuelFor, List.length_append]
  omega

/-- A text that denotes a value, with white space around it, is read as that value. -/
theorem readWhole_of_denotes (h : DenotesWhole cs j) : readWhole .strict cs = .ok j := by
  obtain ⟨before, text, after, hbefore, hafter, htext, rfl⟩ := h
  have hends : EndsNumber after := by
    have hnil : EndsNumber [] := fun c hc => by cases hc
    simpa using endsNumber_of_blank hafter hnil
  have hread := readFront_of_denotes htext (ends_of_endsNumber hends j)
  obtain ⟨c, tail, rfl, hc, -⟩ := htext.first
  have hskip := skipBlanks_of_blank hbefore hc (tail ++ after)
  rw [List.cons_append] at hread ⊢
  simp only [readWhole, Dialect.strict, Bool.false_and, Bool.false_eq_true, if_false] at hread ⊢
  rw [hskip, hread]
  simp only [skipBlanks_eq_nil hafter]

theorem parse_of_denotes {s : String} (h : DenotesWhole s.toList j) : parse .strict s = .ok j := by
  rw [parse, readWhole_of_denotes h]
  rfl

end Runbook.Json
