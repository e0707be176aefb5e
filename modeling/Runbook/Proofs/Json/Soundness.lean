import Runbook.Proofs.Json.Completeness

/-!
# The strict reader reads nothing but the grammar

Whatever the strict reader takes from the front of a text is a text of the grammar, and denotes the
value that the reader gives. The scanners of tokens come first; values, items and members follow,
all three by one induction on the fuel.

The module introduces `Json.ValuesDenote`, `Json.ItemsDenote` and `Json.MembersDenote`, which say so
of the reader with some fuel. The main results are `Json.denotes_of_readFront` for the front of a
text and `Json.denotesWhole_of_parse` for a whole text.
-/

namespace Runbook.Json

/-- A computation whose result is changed succeeds only if it succeeded before. -/
theorem exists_of_map_eq_ok {ε α β : Type} {f : α → β} {x : Except ε α} {b : β}
    (h : x.map f = .ok b) : ∃ a, x = .ok a ∧ f a = b := by
  cases x with
  | error e => cases h
  | ok a => exact ⟨a, rfl, Except.ok.inj h⟩

/-! ## White space and digits -/

/-- What is skipped is white space. -/
theorem exists_blank_append_skipBlanks (cs : List Char) :
    ∃ blank, IsBlank blank ∧ cs = blank ++ skipBlanks cs := by
  refine ⟨cs.takeWhile isBlankChar, ?_, ?_⟩
  · intro c hc
    exact List.all_eq_true.mp List.all_takeWhile c hc
  · rw [skipBlanks, List.takeWhile_append_dropWhile]

theorem allDigits_takeWhile (cs : List Char) : AllDigits (cs.takeWhile Text.isAsciiDigit) := by
  intro c hc
  exact List.all_eq_true.mp List.all_takeWhile c hc

/-! ## Numbers -/

theorem isWhole_of_wholePart? {cs whole rest : List Char}
    (h : wholePart? cs = some (whole, rest)) : IsWhole whole ∧ cs = whole ++ rest := by
  cases cs with
  | nil => cases h
  | cons c cs =>
    rw [wholePart?] at h
    by_cases hzero : c = '0'
    · rw [if_pos hzero] at h
      cases h
      exact ⟨.zero, by rw [hzero]; rfl⟩
    · rw [if_neg hzero] at h
      by_cases hdigit : Text.isAsciiDigit c = true
      · rw [if_pos hdigit] at h
        cases h
        refine ⟨.digits hzero hdigit (allDigits_takeWhile cs), ?_⟩
        rw [List.cons_append, List.takeWhile_append_dropWhile]
      · rw [if_neg hdigit] at h
        cases h

theorem isFraction_fractionPart (cs : List Char) :
    IsFraction (fractionPart cs).1 ∧ cs = (fractionPart cs).1 ++ (fractionPart cs).2 := by
  fun_cases fractionPart cs with
  | case1 c cs hdigit =>
    refine ⟨.digits hdigit (allDigits_takeWhile cs), ?_⟩
    simp only [List.cons_append, List.takeWhile_append_dropWhile]
  | case2 c cs hdigit => exact ⟨.none, rfl⟩
  | case3 cs hpoint => exact ⟨.none, rfl⟩

theorem mem_of_signPart (cs : List Char) :
    (signPart cs).1 ∈ [[], ['+'], ['-']] ∧ cs = (signPart cs).1 ++ (signPart cs).2 := by
  fun_cases signPart cs with
  | case1 => exact ⟨by simp, rfl⟩
  | case2 c cs hsign =>
    refine ⟨?_, rfl⟩
    rcases hsign with rfl | rfl <;> simp
  | case3 c cs hsign => exact ⟨by simp, rfl⟩

theorem isExponent_exponentPart (cs : List Char) :
    IsExponent (exponentPart cs).1 ∧ cs = (exponentPart cs).1 ++ (exponentPart cs).2 := by
  fun_cases exponentPart cs with
  | case1 => exact ⟨.none, rfl⟩
  | case2 e cs hletter sign rest hsign digits hempty => exact ⟨.none, rfl⟩
  | case3 e cs hletter sign rest hsign digits hsome =>
    obtain ⟨hmem, hcs⟩ := mem_of_signPart cs
    rw [hsign] at hmem hcs
    have hall : AllDigits digits := allDigits_takeWhile rest
    have hrest : rest = digits ++ rest.dropWhile Text.isAsciiDigit :=
      List.takeWhile_append_dropWhile.symm
    -- An exponent has a digit at least, or else its letter is left to what follows.
    cases hdigits : digits with
    | nil => simp [hdigits] at hsome
    | cons c tail =>
      rw [hdigits] at hall hrest
      refine ⟨.digits hletter hmem (hall c List.mem_cons_self) ?_, ?_⟩
      · intro d hd
        exact hall d (List.mem_cons_of_mem c hd)
      · simp only [List.cons_append, List.append_assoc] at hrest ⊢
        rw [← hrest, ← hcs]
  | case4 e cs hletter => exact ⟨.none, rfl⟩

/-- What is taken for a number is the literal of one. -/
theorem isNumber_of_takeNumber? {cs whole tail rest : List Char}
    (h : takeNumber? cs = some (whole, tail, rest)) :
    IsNumber (whole ++ tail) ∧ cs = whole ++ tail ++ rest := by
  -- The sign is told apart first; the rest is the same with and without one.
  obtain ⟨sign, digits, hsign, hcs, hread⟩ : ∃ sign digits, (sign = [] ∨ sign = ['-']) ∧
      cs = sign ++ digits ∧ (wholePart? digits).map (fun parts =>
        (sign ++ parts.1, (fractionPart parts.2).1 ++ (exponentPart (fractionPart parts.2).2).1,
          (exponentPart (fractionPart parts.2).2).2)) = some (whole, tail, rest) := by
    unfold takeNumber? at h
    split at h
    rename_i sign digits heq
    refine ⟨sign, digits, ?_, ?_, h⟩
    · split at heq <;> cases heq
      · exact .inr rfl
      · exact .inl rfl
    · split at heq <;> cases heq <;> rfl
  obtain ⟨⟨part, after⟩, hpart, heq⟩ := Option.map_eq_some_iff.mp hread
  obtain ⟨hwhole, hdigits⟩ := isWhole_of_wholePart? hpart
  obtain ⟨hfraction, hafter⟩ := isFraction_fractionPart after
  obtain ⟨hexponent, hlast⟩ := isExponent_exponentPart (fractionPart after).2
  simp only [Prod.mk.injEq] at heq
  obtain ⟨rfl, rfl, rfl⟩ := heq
  refine ⟨⟨sign, part, _, _, ⟨hsign, hwhole, hfraction, hexponent⟩, ?_⟩, ?_⟩
  · rw [List.append_assoc]
  · calc cs
      _ = sign ++ (part ++ after) := by rw [hcs, hdigits]
      _ = sign ++ (part ++ ((fractionPart after).1 ++ ((exponentPart (fractionPart after).2).1 ++
          (exponentPart (fractionPart after).2).2))) := by rw [← hlast, ← hafter]
      _ = _ := by simp only [List.append_assoc]

/-! ## Scalars -/

theorem denotes_of_readScalar {cs rest : List Char} {j : Json}
    (h : readScalar .strict cs = .ok (j, rest)) : ∃ text, Denotes text j ∧ cs = text ++ rest := by
  unfold readScalar at h
  split at h
  · rename_i word value hfind
    cases h
    -- The word is one of the list and the beginning of the text.
    have hmem := List.mem_of_find?_eq_some hfind
    have hfront := List.find?_some hfind
    obtain ⟨tail, htail⟩ := List.isPrefixOf_iff_prefix.mp hfront
    refine ⟨word, .word hmem, ?_⟩
    rw [← htail, List.drop_left]
  · split at h
    · cases h
    · split at h
      · cases h
      · rename_i whole tail after htake
        obtain ⟨hnumber, hcs⟩ := isNumber_of_takeNumber? htake
        cases h
        exact ⟨whole ++ tail, .number hnumber, hcs⟩

/-! ## Strings -/

/-- A number in front of those that were found comes first. -/
theorem of_cons_eq_ok {n : Nat} {r : Reading (List Nat)} {codes : List Nat} {rest : List Char}
    (h : r.cons n = .ok (codes, rest)) : ∃ tail, codes = n :: tail ∧ r = .ok (tail, rest) := by
  obtain ⟨⟨tail, after⟩, hr, heq⟩ := exists_of_map_eq_ok h
  cases heq
  exact ⟨tail, rfl, hr⟩

/-- What is read of a string, up to its closing quote, spells the codes. -/
theorem spells_of_readCodes {whole cs rest : List Char} {codes : List Nat}
    (h : readCodes whole cs = .ok (codes, rest)) :
    ∃ body, Spells body codes ∧ cs = body ++ '"' :: rest := by
  fun_induction readCodes whole cs generalizing codes with
  | case2 tail =>
    cases h
    exact ⟨[], .nil, rfl⟩
  | case4 a b c d n next after hnumber hquote ih =>
    obtain ⟨tail, rfl, hread⟩ := of_cons_eq_ok h
    obtain ⟨body, hspells, hcs⟩ := ih hread
    refine ⟨'\\' :: 'u' :: a :: b :: c :: d :: body, .number hnumber hspells, ?_⟩
    rw [hcs]
    rfl
  | case7 e more hu ch hletter hquote ih =>
    obtain ⟨tail, rfl, hread⟩ := of_cons_eq_ok h
    obtain ⟨body, hspells, rfl⟩ := ih hread
    exact ⟨'\\' :: e :: body, .letter hletter hspells, rfl⟩
  | case10 c more hquote hescape hprintable ih =>
    obtain ⟨tail, rfl, hread⟩ := of_cons_eq_ok h
    obtain ⟨body, hspells, rfl⟩ := ih hread
    exact ⟨c :: body, .plain hquote hescape (Nat.not_lt.mp hprintable) hspells, rfl⟩
  -- In all other cases the reader has found a fault.
  | case1 | case3 | case5 | case6 | case8 | case9 => cases h

theorem quoted_of_readString {whole cs rest : List Char} {text : String}
    (h : readString whole cs = .ok (text, rest)) :
    ∃ body codes, Spells body codes ∧ text = spelt codes ∧ '"' :: cs = quoted body ++ rest := by
  obtain ⟨⟨codes, after⟩, hread, heq⟩ := exists_of_map_eq_ok h
  obtain ⟨body, hspells, rfl⟩ := spells_of_readCodes hread
  cases heq
  refine ⟨body, codes, hspells, rfl, ?_⟩
  rw [quoted, List.cons_append, List.append_assoc]
  rfl

/-! ## Values -/

/-- What the reader with some fuel takes for a value is one. -/
def ValuesDenote (fuel : Nat) : Prop :=
  ∀ {cs rest : List Char} {j : Json}, readValue .strict fuel cs = .ok (j, rest) →
    ∃ text, Denotes text j ∧ cs = text ++ rest

/-- What the reader with some fuel takes for items are such. -/
def ItemsDenote (fuel : Nat) : Prop :=
  ∀ {cs rest : List Char} {items : List Json}, readItems .strict fuel cs = .ok (items, rest) →
    ∃ text, DenotesItems text items ∧ cs = text ++ ']' :: rest

/-- What the reader with some fuel takes for members are such. -/
def MembersDenote (fuel : Nat) : Prop :=
  ∀ {cs rest : List Char} {members : List (String × Json)},
    readMembers .strict fuel cs = .ok (members, rest) →
      ∃ text, DenotesMembers text members ∧ cs = text ++ '\x7d' :: rest

section Fuel

variable {fuel : Nat}

/-- An array is read for one: its items were read after the white space at its front. -/
theorem denotes_of_readArray (hitems : ItemsDenote fuel) {cs rest : List Char} {j : Json}
    (h : readValue .strict (fuel + 1) ('[' :: cs) = .ok (j, rest)) :
    ∃ text, Denotes text j ∧ '[' :: cs = text ++ rest := by
  obtain ⟨blank, hblank, hcs⟩ := exists_blank_append_skipBlanks cs
  rw [readValue, if_neg (by decide), if_neg (by decide), if_pos rfl] at h
  split at h
  · rename_i after heq
    cases h
    refine ⟨'[' :: (blank ++ [']']), .emptyArray hblank, ?_⟩
    rw [hcs, heq]
    simp
  · obtain ⟨⟨items, after⟩, hread, heq⟩ := exists_of_map_eq_ok h
    obtain ⟨text, htext, hrest⟩ := hitems hread
    cases heq
    refine ⟨'[' :: (blank ++ (text ++ [']'])), .array hblank htext, ?_⟩
    rw [hcs, hrest]
    simp

/-- An object is read for one: its members were read after the white space at its front. -/
theorem denotes_of_readObject (hmembers : MembersDenote fuel) {cs rest : List Char} {j : Json}
    (h : readValue .strict (fuel + 1) ('\x7b' :: cs) = .ok (j, rest)) :
    ∃ text, Denotes text j ∧ '\x7b' :: cs = text ++ rest := by
  obtain ⟨blank, hblank, hcs⟩ := exists_blank_append_skipBlanks cs
  rw [readValue, if_neg (by decide), if_pos rfl] at h
  split at h
  · rename_i after heq
    cases h
    refine ⟨'\x7b' :: (blank ++ ['\x7d']), .emptyObject hblank, ?_⟩
    rw [hcs, heq]
    simp
  · obtain ⟨⟨members, after⟩, hread, heq⟩ := exists_of_map_eq_ok h
    obtain ⟨text, htext, hrest⟩ := hmembers hread
    cases heq
    refine ⟨'\x7b' :: (blank ++ (text ++ ['\x7d'])), .object hblank htext, ?_⟩
    rw [hcs, hrest]
    simp

theorem valuesDenote_succ (hitems : ItemsDenote fuel) (hmembers : MembersDenote fuel) :
    ValuesDenote (fuel + 1) := by
  intro cs rest j h
  cases cs with
  | nil => cases h
  | cons c cs =>
    by_cases hquote : c = '"'
    · subst hquote
      rw [readValue, if_pos rfl] at h
      obtain ⟨⟨text, after⟩, hread, heq⟩ := exists_of_map_eq_ok h
      obtain ⟨body, codes, hspells, rfl, hcs⟩ := quoted_of_readString hread
      cases heq
      exact ⟨quoted body, .string hspells, hcs⟩
    · by_cases hbrace : c = '\x7b'
      · subst hbrace
        exact denotes_of_readObject hmembers h
      · by_cases hbracket : c = '['
        · subst hbracket
          exact denotes_of_readArray hitems h
        · rw [readValue_scalar rfl hquote hbrace hbracket] at h
          exact denotes_of_readScalar h

/-- An item is followed by white space, and that by a comma or the closing bracket. -/
theorem itemsDenote_succ (hvalues : ValuesDenote fuel) (hitems : ItemsDenote fuel) :
    ItemsDenote (fuel + 1) := by
  intro cs rest items h
  rw [readItems] at h
  split at h
  · cases h
  · rename_i item after hread
    obtain ⟨text, htext, rfl⟩ := hvalues hread
    obtain ⟨before, hbefore, hafter⟩ := exists_blank_append_skipBlanks after
    split at h
    · rename_i heq
      cases h
      refine ⟨text ++ before, .last htext hbefore, ?_⟩
      rw [hafter, heq, List.append_assoc]
    · rename_i more heq
      obtain ⟨blank, hblank, hmore⟩ := exists_blank_append_skipBlanks more
      obtain ⟨⟨others, last⟩, hothers, hpair⟩ := exists_of_map_eq_ok h
      obtain ⟨tail, htail, hlast⟩ := hitems hothers
      cases hpair
      refine ⟨_, .cons htext hbefore hblank htail, ?_⟩
      rw [hafter, heq, hmore, hlast]
      simp
    · cases h

/-- What the reader takes first of members is one, a key and a value with a colon between them; what
it makes of the rest is decided after it. -/
theorem denotesMember_of_readMembers (hvalues : ValuesDenote fuel) {cs rest : List Char}
    {members : List (String × Json)}
    (h : readMembers .strict (fuel + 1) cs = .ok (members, rest)) :
    ∃ text member next, DenotesMember text member ∧ cs = text ++ next ∧
      afterMember fuel member (skipBlanks next) = .ok (members, rest) := by
  unfold readMembers at h
  split at h
  · rename_i body
    split at h
    · cases h
    · rename_i key afterKey hkey
      obtain ⟨written, codes, hspells, rfl, hbody⟩ := quoted_of_readString hkey
      obtain ⟨before, hbefore, hafterKey⟩ := exists_blank_append_skipBlanks afterKey
      split at h
      · rename_i afterColon hcolon
        obtain ⟨after, hafter, hafterColon⟩ := exists_blank_append_skipBlanks afterColon
        split at h
        · cases h
        · rename_i value next hvalue
          obtain ⟨text, htext, hnext⟩ := hvalues hvalue
          refine ⟨_, _, next, .intro hspells hbefore hafter htext, ?_, h⟩
          rw [hbody, hafterKey, hcolon, hafterColon, hnext]
          simp
      · cases h
  · cases h

/-- A member is followed by white space, and that by a comma or the closing brace. -/
theorem membersDenote_succ (hvalues : ValuesDenote fuel) (hmembers : MembersDenote fuel) :
    MembersDenote (fuel + 1) := by
  intro cs rest members h
  obtain ⟨text, member, next, hmember, rfl, hrest⟩ := denotesMember_of_readMembers hvalues h
  obtain ⟨before, hbefore, hnext⟩ := exists_blank_append_skipBlanks next
  unfold afterMember at hrest
  split at hrest
  · rename_i heq
    cases hrest
    refine ⟨text ++ before, .last hmember hbefore, ?_⟩
    rw [hnext, heq, List.append_assoc]
  · rename_i more heq
    obtain ⟨after, hafter, hmore⟩ := exists_blank_append_skipBlanks more
    obtain ⟨⟨others, last⟩, hothers, hpair⟩ := exists_of_map_eq_ok hrest
    obtain ⟨tail, htail, hlast⟩ := hmembers hothers
    cases hpair
    refine ⟨_, .cons hmember hbefore hafter htail, ?_⟩
    rw [hnext, heq, hmore, hlast]
    simp
  · cases hrest

/-- With any fuel, whatever is read is what it is taken for. -/
theorem allDenote (fuel : Nat) :
    ValuesDenote fuel ∧ ItemsDenote fuel ∧ MembersDenote fuel := by
  induction fuel with
  | zero =>
    refine ⟨?_, ?_, ?_⟩
    · intro cs rest j h
      cases h
    · intro cs rest items h
      cases h
    · intro cs rest members h
      cases h
  | succ fuel ih =>
    obtain ⟨hvalues, hitems, hmembers⟩ := ih
    exact ⟨valuesDenote_succ hitems hmembers, itemsDenote_succ hvalues hitems,
      membersDenote_succ hvalues hmembers⟩

end Fuel

/-! ## Whole texts -/

variable {cs rest : List Char} {j : Json}

/-- What is read from the front of a text denotes the value. -/
theorem denotes_of_readFront (h : readFront .strict cs = .ok (j, rest)) :
    ∃ text, Denotes text j ∧ cs = text ++ rest :=
  (allDenote _).1 h

/-- Before and after the value that a whole text is read as there is only white space. -/
theorem denotesWhole_of_readWhole (h : readWhole .strict cs = .ok j) : DenotesWhole cs j := by
  rw [readWhole] at h
  simp only [Dialect.strict, Bool.false_and, Bool.false_eq_true, if_false] at h
  obtain ⟨before, hbefore, hcs⟩ := exists_blank_append_skipBlanks cs
  split at h
  · cases h
  · rename_i value after hread
    obtain ⟨text, htext, hskip⟩ := denotes_of_readFront hread
    obtain ⟨blank, hblank, hafter⟩ := exists_blank_append_skipBlanks after
    split at h
    · rename_i heq
      cases h
      refine ⟨before, text, blank, hbefore, hblank, htext, ?_⟩
      rw [heq, List.append_nil] at hafter
      rw [hcs, hskip, hafter]
    · cases h

theorem denotesWhole_of_parse {s : String} (h : parse .strict s = .ok j) :
    DenotesWhole s.toList j := by
  rw [parse] at h
  cases hread : readWhole .strict s.toList with
  | error fault =>
    rw [hread] at h
    cases h
  | ok value =>
    rw [hread] at h
    cases h
    exact denotesWhole_of_readWhole hread

end Runbook.Json
