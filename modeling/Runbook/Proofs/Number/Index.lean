import Mathlib.Data.List.TakeWhile
import Runbook.Number.Integer
import Runbook.Proofs.Json.Grammar
import Runbook.Proofs.Text.Split

/-!
# Digits that are read as an index

Which texts of digits are read as an integer. The digits are those of all scripts; decimal ones are
read, zeros in front of others included, as long as there are not too many of them, and those that
are not decimal, superscripts and the like, are refused.

The module introduces:

* `Number.IsNumeral`: the texts of decimal digits, of any script, that are read as a number;
* `Number.IsUnreadable`: the texts of digits that are refused, and what for;
* `Number.IsIndex`: the numerals in ASCII digits;
* `Text.IsAscii`: the texts in which no other digits can stand.

The main results are `Number.readInteger_eq_ok_iff` and `Number.readInteger_eq_error_iff`.
-/

namespace Runbook

namespace Text

/-- A decimal digit of any script. -/
def isDecimal (c : Char) : Bool :=
  (decimalValue? c).isSome

theorem isDigit_of_isDecimal {c : Char} (h : isDecimal c = true) : isDigit c = true := by
  rw [isDigit, Bool.or_eq_true]
  exact .inl h

/-- A decimal digit counts for less than ten. -/
theorem decimalValue?_lt {c : Char} {d : Nat} (h : decimalValue? c = some d) : d < 10 := by
  obtain ⟨first, hfind, rfl⟩ := Option.map_eq_some_iff.mp h
  have hrange := List.find?_some hfind
  simp only [Bool.and_eq_true, decide_eq_true_eq] at hrange
  omega

theorem toNat_of_isAsciiDigit {c : Char} (h : isAsciiDigit c = true) :
    48 ≤ c.toNat ∧ c.toNat ≤ 57 := by
  simpa [isAsciiDigit, Char.le_def, UInt32.le_iff_toNat_le] using h

/-- The ASCII digits come first among the digits of all scripts. -/
theorem decimalValue?_of_isAsciiDigit {c : Char} (h : isAsciiDigit c = true) :
    decimalValue? c = some (c.toNat - '0'.toNat) := by
  have hbounds := toNat_of_isAsciiDigit h
  have hzero : decimalZeros.find? (fun first => first ≤ c.toNat && c.toNat ≤ first + 9) =
      some 0x30 := List.find?_cons_of_pos (by simp; omega)
  rw [decimalValue?, hzero]
  rfl

theorem isDecimal_of_isAsciiDigit {c : Char} (h : isAsciiDigit c = true) :
    isDecimal c = true := by
  rw [isDecimal, decimalValue?_of_isAsciiDigit h]
  rfl

/-- No digit is white space. -/
theorem isSpace_of_isDigit {c : Char} (h : isDigit c = true) : isSpace c = false := by
  cases hspace : isSpace c with
  | false => rfl
  | true =>
    have hcode : c.toNat ∈ List.range' 9 5 ++ List.range' 28 5 ++ [0x85, 0xA0, 0x1680] ++
        List.range' 0x2000 11 ++ [0x2028, 0x2029, 0x202F, 0x205F, 0x3000] := by
      simp only [isSpace, Bool.or_eq_true, Bool.and_eq_true, decide_eq_true_eq, beq_iff_eq]
        at hspace
      simp only [List.mem_append, List.mem_range'_1, List.mem_cons, List.not_mem_nil, or_false]
      omega
    have hnone : ∀ n ∈ List.range' 9 5 ++ List.range' 28 5 ++ [0x85, 0xA0, 0x1680] ++
        List.range' 0x2000 11 ++ [0x2028, 0x2029, 0x202F, 0x205F, 0x3000],
        isDigit (Char.ofNat n) = false := by decide +kernel
    have hdigit := hnone c.toNat hcode
    rw [Char.ofNat_toNat, h] at hdigit
    cases hdigit

/-- A text without white space stays as it is when it is trimmed. -/
theorem trimmed_of_not_isSpace {cs : List Char} (h : ∀ c ∈ cs, isSpace c = false) :
    trimmed cs = cs :=
  trimmed_eq_iff.mpr ⟨⟨[], [], by simp⟩, fun c hc => h c (List.mem_of_mem_head? hc),
    fun c hc => h c (List.mem_of_mem_getLast? hc)⟩

theorem isDigits_iff {cs : List Char} :
    isDigits cs = true ↔ cs ≠ [] ∧ ∀ c ∈ cs, isDigit c = true := by
  simp [isDigits]

/-- The characters of a text are ASCII ones. -/
def IsAscii (cs : List Char) : Prop :=
  ∀ c ∈ cs, c.toNat < 128

/-- Among the ASCII characters only the ASCII digits stand for digits. -/
theorem isAsciiDigit_of_isDigit {c : Char} (hascii : c.toNat < 128) (h : isDigit c = true) :
    isAsciiDigit c = true := by
  have hall : ∀ n < 128, isDigit (Char.ofNat n) = true → isAsciiDigit (Char.ofNat n) = true := by
    decide +kernel
  have hc := hall c.toNat hascii
  rw [Char.ofNat_toNat] at hc
  exact hc h

theorem allDigits_of_isDigits {cs : List Char} (hascii : IsAscii cs) (h : isDigits cs = true) :
    Json.AllDigits cs :=
  fun c hc => isAsciiDigit_of_isDigit (hascii c hc) ((isDigits_iff.mp h).2 c hc)

end Text

namespace Number

/-! ## Reading digits -/

/-- Digits that are no decimal ones count for nothing, since the letters count for ten and more. -/
theorem digitValue?_ten (c : Char) : digitValue? 10 c = Text.decimalValue? c := by
  rw [digitValue?]
  cases hvalue : Text.decimalValue? c with
  | some d => simpa using Text.decimalValue?_lt hvalue
  | none =>
    rw [Option.none_or, Option.filter_eq_none_iff]
    intro d hd
    unfold Text.hexValue? at hd
    split at hd
    · rename_i hdigit
      rw [Text.decimalValue?_of_isAsciiDigit hdigit] at hvalue
      cases hvalue
    · split at hd
      · rename_i hlower
        simp [Char.le_def, UInt32.le_iff_toNat_le] at hlower
        cases hd
        simp
        omega
      · split at hd
        · rename_i hupper
          simp [Char.le_def, UInt32.le_iff_toNat_le] at hupper
          cases hd
          simp
          omega
        · cases hd

/-- Of a text of digits the decimal ones at its front are taken. -/
theorem takeDigits_of_digits {cs : List Char} (h : ∀ c ∈ cs, Text.isDigit c = true) :
    takeDigits 10 cs =
      ((cs.takeWhile Text.isDecimal).filterMap Text.decimalValue?,
        cs.dropWhile Text.isDecimal) := by
  induction cs with
  | nil => rfl
  | cons c cs ih =>
    have hrest := ih fun d hd => h d (List.mem_cons_of_mem c hd)
    have hmark : c ≠ '_' := by
      rintro rfl
      exact absurd (h '_' List.mem_cons_self) (by decide +kernel)
    rw [takeDigits]
    · rw [digitValue?_ten]
      cases hvalue : Text.decimalValue? c with
      | none => simp [Text.isDecimal, hvalue]
      | some d => simp [Text.isDecimal, hvalue, hrest]
    · rintro _ _ rfl
      exact absurd rfl hmark

/-- A text of digits is read as the number that they denote, unless it begins with too many decimal
digits or holds one that is not decimal. -/
theorem readInteger_of_isDigits {text : String} (h : Text.isDigits text.toList = true) :
    readInteger 10 text =
      if maxDigits < (text.toList.takeWhile Text.isDecimal).length then
        .error (.tooManyDigits (text.toList.takeWhile Text.isDecimal).length)
      else if text.toList.all Text.isDecimal then
        .ok (ofDigits 10 (text.toList.filterMap Text.decimalValue?))
      else .error (.notInteger 10 text) := by
  obtain ⟨hsome, hdigits⟩ := Text.isDigits_iff.mp h
  obtain ⟨c, tail, hs⟩ := List.exists_cons_of_ne_nil hsome
  have hne (mark : Char) (hmark : Text.isDigit mark = false) : c ≠ mark := by
    rintro rfl
    cases (hdigits c (hs ▸ List.mem_cons_self)).symm.trans hmark
  have htrimmed := Text.trimmed_of_not_isSpace fun c hc =>
    Text.isSpace_of_isDigit (hdigits c hc)
  -- Bases are marked only where they are powers of two.
  have hunmarked : dropBaseMark 10 text.toList = text.toList := by
    unfold dropBaseMark
    split
    · rename_i heq
      exact heq.symm
    · rfl
  have htake := takeDigits_of_digits hdigits
  have hcount : ((text.toList.takeWhile Text.isDecimal).filterMap Text.decimalValue?).length =
      (text.toList.takeWhile Text.isDecimal).length := by
    rw [List.length_filterMap_eq_countP, List.countP_eq_length]
    exact List.all_eq_true.mp List.all_takeWhile
  have hhead : text.toList.head? ≠ some '_' := by
    rw [hs]
    simpa using hne '_' (by decide +kernel)
  unfold readInteger
  simp only [htrimmed]
  -- There is no sign in front.
  split
  · rename_i hsign
    rw [hs] at hsign
    exact absurd (List.cons.inj hsign).1 (hne '-' (by decide +kernel))
  · rename_i hsign
    rw [hs] at hsign
    exact absurd (List.cons.inj hsign).1 (hne '+' (by decide +kernel))
  · cases hall : text.toList.all Text.isDecimal with
    | true =>
      have hwhole := List.takeWhile_eq_self_iff.mpr (List.all_eq_true.mp hall)
      have hnothing := List.dropWhile_eq_nil_iff.mpr (List.all_eq_true.mp hall)
      rw [hwhole] at hcount
      have hsome : (text.toList.filterMap Text.decimalValue?).isEmpty = false := by
        rw [List.isEmpty_eq_false_iff, ← List.length_pos_iff, hcount, List.length_pos_iff]
        exact hsome
      simp [hunmarked, htake, hwhole, hnothing, hcount, hsome, hhead]
    | false =>
      have hrest : (text.toList.dropWhile Text.isDecimal).isEmpty = false := by
        rw [List.isEmpty_eq_false_iff, Ne, List.dropWhile_eq_nil_iff, ← List.all_eq_true, hall]
        exact Bool.false_ne_true
      simp [hunmarked, htake, hrest, hcount]

/-! ## What is read and what is refused -/

/-- A text is a numeral of a number: decimal digits of any script, not more than are read, which
denote it. -/
structure IsNumeral (text : String) (n : Nat) : Prop where
  /-- There is a digit. -/
  ne_empty : text ≠ ""
  /-- There is nothing else. -/
  decimals : ∀ c ∈ text.toList, Text.isDecimal c = true
  /-- There are not too many. -/
  short : text.length ≤ maxDigits
  /-- They denote the number; zeros may stand in front. -/
  denotes : ofDigits 10 (text.toList.filterMap Text.decimalValue?) = n

/-- Why a text of digits is not read. -/
inductive IsUnreadable (text : String) : IntegerFault → Prop
  /-- It begins with more decimal digits than are read. -/
  | tooMany :
    maxDigits < (text.toList.takeWhile Text.isDecimal).length →
    IsUnreadable text (.tooManyDigits (text.toList.takeWhile Text.isDecimal).length)
  /-- One of its digits is not decimal, and not too many others stand before. -/
  | notDecimal {c : Char} :
    c ∈ text.toList → Text.isDecimal c = false →
    (text.toList.takeWhile Text.isDecimal).length ≤ maxDigits →
    IsUnreadable text (.notInteger 10 text)

section Digits

variable {text : String} (h : Text.isDigits text.toList = true)

include h

/-- A text of digits is read as a number just if it is a numeral of the number. -/
theorem readInteger_eq_ok_iff {i : Int} :
    readInteger 10 text = .ok i ↔ ∃ n, IsNumeral text n ∧ i = n := by
  rw [readInteger_of_isDigits h]
  constructor
  · intro hread
    split at hread
    · cases hread
    · rename_i hshort
      split at hread
      · rename_i hall
        cases hread
        rw [List.takeWhile_eq_self_iff.mpr (List.all_eq_true.mp hall), String.length_toList]
          at hshort
        exact ⟨_, ⟨by simpa using (Text.isDigits_iff.mp h).1, List.all_eq_true.mp hall,
          Nat.not_lt.mp hshort, rfl⟩, rfl⟩
      · cases hread
  · rintro ⟨n, hnumeral, rfl⟩
    rw [List.takeWhile_eq_self_iff.mpr hnumeral.decimals, String.length_toList,
      if_neg (Nat.not_lt.mpr hnumeral.short), if_pos (List.all_eq_true.mpr hnumeral.decimals),
      hnumeral.denotes]

/-- A text of digits is refused just if it is unreadable. -/
theorem readInteger_eq_error_iff {fault : IntegerFault} :
    readInteger 10 text = .error fault ↔ IsUnreadable text fault := by
  rw [readInteger_of_isDigits h]
  constructor
  · intro hread
    split at hread
    · rename_i hlong
      cases hread
      exact .tooMany hlong
    · rename_i hshort
      split at hread
      · cases hread
      · rename_i hall
        cases hread
        obtain ⟨c, hc, hdecimal⟩ : ∃ c ∈ text.toList, Text.isDecimal c = false := by
          simpa using hall
        exact .notDecimal hc hdecimal (Nat.not_lt.mp hshort)
  · intro hunreadable
    cases hunreadable with
    | tooMany hlong => rw [if_pos hlong]
    | notDecimal hc hdecimal hshort =>
      rw [if_neg (Nat.not_lt.mpr hshort), if_neg]
      intro hall
      cases (List.all_eq_true.mp hall _ hc).symm.trans hdecimal

end Digits

theorem IsNumeral.isDigits {text : String} {n : Nat} (h : IsNumeral text n) :
    Text.isDigits text.toList = true :=
  Text.isDigits_iff.mpr ⟨by simpa using h.ne_empty, fun c hc =>
    Text.isDigit_of_isDecimal (h.decimals c hc)⟩

/-- A numeral is read as the number that it is a numeral of. -/
theorem IsNumeral.readInteger_eq {text : String} {n : Nat} (h : IsNumeral text n) :
    readInteger 10 text = .ok n :=
  (readInteger_eq_ok_iff h.isDigits).mpr ⟨n, h, rfl⟩

/-! ## ASCII digits -/

/-- Digits denote the same whether they are looked at as characters or as numbers. -/
theorem ofDigits_filterMap {cs : List Char} (h : Json.AllDigits cs) :
    ofDigits 10 (cs.filterMap Text.decimalValue?) = Nat.ofDigitChars 10 cs 0 := by
  have hvalues : cs.filterMap Text.decimalValue? = cs.map fun c => c.toNat - '0'.toNat := by
    induction cs with
    | nil => rfl
    | cons c cs ih =>
      rw [List.filterMap_cons_some (Text.decimalValue?_of_isAsciiDigit (h c List.mem_cons_self)),
        ih fun d hd => h d (List.mem_cons_of_mem c hd), List.map_cons]
  rw [hvalues, ofDigits, List.foldl_map, Nat.ofDigitChars_eq_foldl]
  simp only [Nat.mul_comm]

/-- A text is the decimal index of a number: ASCII digits, not more than are read, which denote it.
-/
structure IsIndex (text : String) (index : Nat) : Prop where
  /-- There is a digit. -/
  ne_empty : text ≠ ""
  /-- There is nothing else. -/
  digits : Json.AllDigits text.toList
  /-- There are not too many. -/
  short : text.length ≤ maxDigits
  /-- They denote the number; zeros may stand in front. -/
  denotes : Nat.ofDigitChars 10 text.toList 0 = index

section Ascii

variable {text : String} (h : Json.AllDigits text.toList)

include h

theorem takeWhile_isDecimal_of_allDigits :
    text.toList.takeWhile Text.isDecimal = text.toList :=
  List.takeWhile_eq_self_iff.mpr fun c hc => Text.isDecimal_of_isAsciiDigit (h c hc)

/-- ASCII digits are refused only if there are too many. -/
theorem isUnreadable_iff_of_allDigits {fault : IntegerFault} :
    IsUnreadable text fault ↔ maxDigits < text.length ∧ fault = .tooManyDigits text.length := by
  have hwhole := takeWhile_isDecimal_of_allDigits h
  constructor
  · intro hunreadable
    cases hunreadable with
    | tooMany hlong =>
      rw [hwhole, String.length_toList] at hlong
      rw [hwhole, String.length_toList]
      exact ⟨hlong, rfl⟩
    | notDecimal hc hdecimal _ =>
      cases (Text.isDecimal_of_isAsciiDigit (h _ hc)).symm.trans hdecimal
  · rintro ⟨hlong, rfl⟩
    have htooMany : IsUnreadable text _ := .tooMany (by rwa [hwhole, String.length_toList])
    rwa [hwhole, String.length_toList] at htooMany

theorem isNumeral_iff_of_allDigits {n : Nat} : IsNumeral text n ↔ IsIndex text n := by
  constructor
  · intro hnumeral
    exact ⟨hnumeral.ne_empty, h, hnumeral.short,
      (ofDigits_filterMap h).symm.trans hnumeral.denotes⟩
  · intro hindex
    exact ⟨hindex.ne_empty, fun c hc => Text.isDecimal_of_isAsciiDigit (h c hc), hindex.short,
      (ofDigits_filterMap h).trans hindex.denotes⟩

end Ascii

namespace IsIndex

variable {text : String} {index : Nat}

/-- The indices are the numerals in ASCII digits. -/
theorem isNumeral (h : IsIndex text index) : IsNumeral text index :=
  (isNumeral_iff_of_allDigits h.digits).mpr h

theorem isDigits (h : IsIndex text index) : Text.isDigits text.toList = true :=
  h.isNumeral.isDigits

/-- An index is read as the number that it is the index of. -/
theorem readInteger_eq (h : IsIndex text index) : readInteger 10 text = .ok index :=
  h.isNumeral.readInteger_eq

end IsIndex

end Number

end Runbook
