import Runbook.Proofs.Json.Grammar

/-!
# The characters that a string spells

The text between the quotes of a string spells codes. A code is that of a character, or a half of a
pair. Two halves in their order, one right after the other, are one character, and a half without
the other is kept as a private character. That is told by rules here, and the reader of strings
joins the codes by these rules.

The module introduces:

* `Json.IsPair`: two codes are the halves of a pair, in their order;
* `Json.Forms`: the characters of codes.

The main result is `Json.Spells.forms_iff`.
-/

namespace Runbook.Json

variable {n high low : Nat} {codes : List Nat} {cs : List Char}

/-- The first of two codes is the high half of a pair, and the second one its low half. -/
def IsPair (high low : Nat) : Prop :=
  (0xD800 ≤ high ∧ high ≤ 0xDBFF) ∧ 0xDC00 ≤ low ∧ low ≤ 0xDFFF

/-- The characters that codes form. -/
inductive Forms : List Nat → List Char → Prop
  | nil : Forms [] []
  | single {c : Char} {codes : List Nat} {cs : List Char} :
      Forms codes cs → Forms (c.toNat :: codes) (c :: cs)
  | pair {high low : Nat} {c : Char} {codes : List Nat} {cs : List Char} :
      IsPair high low → c.toNat = 0x10000 + (high - 0xD800) * 0x400 + (low - 0xDC00) →
      Forms codes cs → Forms (high :: low :: codes) (c :: cs)
  | half {n : Nat} {c : Char} {codes : List Nat} {cs : List Char} :
      0xD800 ≤ n ∧ n ≤ 0xDFFF → (∀ m ∈ codes.head?, ¬IsPair n m) → c.toNat = 0x100000 + n →
      Forms codes cs → Forms (n :: codes) (c :: cs)

/-! ## Halves -/

theorem isPair_iff :
    IsPair high low ↔ (Text.isHighSurrogate high && Text.isLowSurrogate low) = true := by
  simp only [IsPair, Text.isHighSurrogate, Text.isLowSurrogate, Bool.and_eq_true,
    decide_eq_true_eq]

theorem isHalf_iff :
    (Text.isHighSurrogate n || Text.isLowSurrogate n) = true ↔ 0xD800 ≤ n ∧ n ≤ 0xDFFF := by
  simp only [Text.isHighSurrogate, Text.isLowSurrogate, Bool.or_eq_true, Bool.and_eq_true,
    decide_eq_true_eq]
  omega

/-- The code of a character is no half. -/
theorem not_isHalf_toNat (c : Char) : ¬(0xD800 ≤ c.toNat ∧ c.toNat ≤ 0xDFFF) := by
  have hvalid : c.toNat < 0xD800 ∨ 0xDFFF < c.toNat ∧ c.toNat < 0x110000 := c.valid
  omega

theorem charOfCode_toNat (c : Char) : Text.charOfCode c.toNat = c := by
  rw [Text.charOfCode, if_neg (mt isHalf_iff.mp (not_isHalf_toNat c)), Char.ofNat_toNat]

/-! ## Joining codes -/

theorem joinSurrogates_pair (h : IsPair high low) (codes : List Nat) :
    joinSurrogates (high :: low :: codes) =
      Text.charOfHalves high low :: joinSurrogates codes := by
  rw [joinSurrogates, if_pos (isPair_iff.mp h)]

/-- A code that is no half of a pair with the next one is a character by itself. -/
theorem joinSurrogates_cons (h : ∀ m ∈ codes.head?, ¬IsPair n m) :
    joinSurrogates (n :: codes) = Text.charOfCode n :: joinSurrogates codes := by
  cases codes with
  | nil => rfl
  | cons m codes => rw [joinSurrogates, if_neg (mt isPair_iff.mpr (h m rfl))]

/-- The reader joins codes to the characters that they form. -/
theorem Forms.joinSurrogates_eq (h : Forms codes cs) : joinSurrogates codes = cs := by
  induction h with
  | nil => rfl
  | @single c codes cs _ ih =>
    -- The code of a character is no half, and so it is not joined with the next code.
    have halone : ∀ m ∈ codes.head?, ¬IsPair c.toNat m := by
      intro m _ hpair
      unfold IsPair at hpair
      exact not_isHalf_toNat c (by omega)
    rw [joinSurrogates_cons halone, ih, charOfCode_toNat]
  | pair hpair hcode _ ih =>
    rw [joinSurrogates_pair hpair, ih, Text.charOfHalves, ← hcode, Char.ofNat_toNat]
  | half hhalf halone hcode _ ih =>
    rw [joinSurrogates_cons halone, ih, Text.charOfCode, if_pos (isHalf_iff.mpr hhalf),
      Text.halfShift, ← hcode, Char.ofNat_toNat]

theorem forms_map_toNat (cs : List Char) : Forms (cs.map Char.toNat) cs := by
  induction cs with
  | nil => exact .nil
  | cons c cs ih => exact .single ih

/-- A code that is no half of a pair with the next one forms a character by itself. -/
theorem Forms.cons (hn : n < 0x110000) (halone : ∀ m ∈ codes.head?, ¬IsPair n m)
    (h : Forms codes cs) : Forms (n :: codes) (Text.charOfCode n :: cs) := by
  by_cases hhalf : 0xD800 ≤ n ∧ n ≤ 0xDFFF
  -- A half is kept as a private character, and any other code is that of its character.
  · refine .half hhalf halone ?_ h
    rw [Text.charOfCode, if_pos (isHalf_iff.mpr hhalf), Text.halfShift]
    exact Text.toNat_ofNat (.inr (by omega))
  · have hcode : (Text.charOfCode n).toNat = n := by
      rw [Text.charOfCode, if_neg (mt isHalf_iff.mp hhalf)]
      refine Text.toNat_ofNat ?_
      unfold Nat.isValidChar
      omega
    have hsingle := Forms.single (c := Text.charOfCode n) h
    rwa [hcode] at hsingle

/-- Codes form the characters to which the reader joins them. -/
theorem forms_joinSurrogates (h : ∀ n ∈ codes, n < 0x110000) :
    Forms codes (joinSurrogates codes) := by
  induction codes using joinSurrogates.induct with
  | case1 => exact .nil
  | case2 n => exact Forms.nil.cons (h n List.mem_cons_self) (fun m hm => nomatch hm)
  | case3 high low rest hpair ih =>
    rw [← isPair_iff] at hpair
    have hrest : ∀ n ∈ rest, n < 0x110000 := fun n hn =>
      h n (List.mem_cons_of_mem _ (List.mem_cons_of_mem _ hn))
    rw [joinSurrogates_pair hpair]
    refine .pair hpair ?_ (ih hrest)
    unfold IsPair at hpair
    exact Text.toNat_ofNat (.inr (by omega))
  | case4 n m rest hpair ih =>
    -- The next code is looked at once more, since it may be the high half of a pair itself.
    have halone : ∀ m' ∈ (m :: rest).head?, ¬IsPair n m' := by
      rintro _ ⟨⟩
      rwa [isPair_iff]
    rw [joinSurrogates_cons halone]
    exact (ih fun n hn => h n (List.mem_cons_of_mem _ hn)).cons (h n List.mem_cons_self) halone

/-! ## What a string spells -/

theorem hexValue?_lt {c : Char} (h : Text.hexValue? c = some n) : n < 16 := by
  have hle {first last : Char} (hrange : (decide (first ≤ c) && decide (c ≤ last)) = true) :
      c.toNat ≤ last.toNat := by
    rw [Bool.and_eq_true, decide_eq_true_eq, decide_eq_true_eq] at hrange
    exact UInt32.le_iff_toNat_le.mp hrange.2
  unfold Text.hexValue? at h
  split at h
  case isTrue hrange =>
    have hlast : c.toNat ≤ 57 := hle hrange
    cases h
    omega
  case isFalse =>
    split at h
    case isTrue hrange =>
      have hlast : c.toNat ≤ 102 := hle hrange
      cases h
      omega
    case isFalse =>
      split at h
      case isTrue hrange =>
        have hlast : c.toNat ≤ 70 := hle hrange
        cases h
        omega
      case isFalse => cases h

/-- Four digits denote a number of sixteen bits. -/
theorem hexNumber?_lt {a b c d : Char} (h : hexNumber? a b c d = some n) : n < 0x10000 := by
  simp only [hexNumber?, Option.bind_eq_bind, Option.bind_eq_some_iff, Option.pure_def,
    Option.some.injEq] at h
  obtain ⟨a, ha, b, hb, c, hc, d, hd, rfl⟩ := h
  have ha := hexValue?_lt ha
  have hb := hexValue?_lt hb
  have hc := hexValue?_lt hc
  have hd := hexValue?_lt hd
  omega

/-- The codes that a string spells are those of characters and of halves. -/
theorem Spells.lt (h : Spells cs codes) : ∀ n ∈ codes, n < 0x110000 := by
  have hchar (c : Char) : c.toNat < 0x110000 := by
    have hvalid : c.toNat < 0xD800 ∨ 0xDFFF < c.toNat ∧ c.toNat < 0x110000 := c.valid
    omega
  induction h with
  | nil => exact fun n hn => nomatch hn
  | plain _ _ _ _ ih => exact List.forall_mem_cons.mpr ⟨hchar _, ih⟩
  | letter _ _ ih => exact List.forall_mem_cons.mpr ⟨hchar _, ih⟩
  | number hnumber _ ih =>
    have hnumber := hexNumber?_lt hnumber
    exact List.forall_mem_cons.mpr ⟨by omega, ih⟩

/-- The string that a text spells is the one that its codes form. -/
theorem Spells.forms_iff (h : Spells cs codes) {s : String} :
    Forms codes s.toList ↔ spelt codes = s := by
  constructor
  · intro hforms
    rw [spelt, hforms.joinSurrogates_eq, String.ofList_toList]
  · rintro rfl
    rw [spelt, String.toList_ofList]
    exact forms_joinSurrogates h.lt

end Runbook.Json
