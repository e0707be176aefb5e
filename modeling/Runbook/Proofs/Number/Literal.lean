import Mathlib.Data.List.TakeWhile
import Runbook.Number.Shortest
import Runbook.Proofs.Json.Grammar

/-!
# Written numbers are literals

The decimal text of an integer and the shortest text of a finite number are literals of JSON: no
zero stands in front of other digits, and a point or an exponent mark has digits after it.

The module introduces:

* `Json.IsMagnitude`: the literals without a sign;
* `Json.IsLeading`: digits of which the first is no zero, which is what keeps a whole part legal
  when digits are cut off at its end or zeros put there.

The main results are `Number.isNumber_decimalText` and `Number.isNumber_text`.
-/

namespace Runbook

namespace Json

/-- The literal of a number without a sign. -/
def IsMagnitude (cs : List Char) : Prop :=
  ∃ whole fraction exponent, NumberParts [] whole fraction exponent ∧
    cs = whole ++ (fraction ++ exponent)

theorem IsMagnitude.isNumber {cs : List Char} (h : IsMagnitude cs) : IsNumber cs := by
  obtain ⟨whole, fraction, exponent, hparts, rfl⟩ := h
  exact ⟨[], whole, fraction, exponent, hparts, rfl⟩

/-- A literal may take a minus sign. -/
theorem IsMagnitude.isNumber_neg {cs : List Char} (h : IsMagnitude cs) :
    IsNumber ('-' :: cs) := by
  obtain ⟨whole, fraction, exponent, hparts, rfl⟩ := h
  exact ⟨['-'], whole, fraction, exponent, ⟨.inr rfl, hparts.whole, hparts.fraction,
    hparts.exponent⟩, rfl⟩

/-- A whole part alone is a literal. -/
theorem IsWhole.isMagnitude {cs : List Char} (h : IsWhole cs) : IsMagnitude cs :=
  ⟨cs, [], [], ⟨.inl rfl, h, .none, .none⟩, by simp⟩

theorem allDigits_append {first second : List Char} (hfirst : AllDigits first)
    (hsecond : AllDigits second) : AllDigits (first ++ second) := by
  intro c hc
  rcases List.mem_append.mp hc with hc | hc
  · exact hfirst c hc
  · exact hsecond c hc

theorem allDigits_zeros (count : Nat) : AllDigits (List.replicate count '0') := by
  intro c hc
  rw [(List.mem_replicate.mp hc).2]
  decide

/-- Digits after a point are a fraction. -/
theorem isFraction_point {cs : List Char} (hsome : cs ≠ []) (h : AllDigits cs) :
    IsFraction ('.' :: cs) := by
  obtain ⟨c, tail, rfl⟩ := List.exists_cons_of_ne_nil hsome
  exact .digits (h c List.mem_cons_self) fun d hd => h d (List.mem_cons_of_mem c hd)

/-- A whole part with digits after a point is a literal. -/
theorem IsWhole.isMagnitude_point {whole cs : List Char} (hwhole : IsWhole whole)
    (hsome : cs ≠ []) (hcs : AllDigits cs) : IsMagnitude (whole ++ '.' :: cs) :=
  ⟨whole, '.' :: cs, [], ⟨.inl rfl, hwhole, isFraction_point hsome hcs, .none⟩, by simp⟩

/-- A whole part and a fraction with a power of ten are a literal. -/
theorem IsWhole.isMagnitude_power {whole fraction power : List Char} {sign : Char}
    (hwhole : IsWhole whole) (hfraction : IsFraction fraction) (hsign : sign = '+' ∨ sign = '-')
    (hsome : power ≠ []) (hpower : AllDigits power) :
    IsMagnitude (whole ++ (fraction ++ 'e' :: sign :: power)) := by
  obtain ⟨c, tail, rfl⟩ := List.exists_cons_of_ne_nil hsome
  have hmem : [sign] ∈ [[], ['+'], ['-']] := by
    rcases hsign with rfl | rfl <;> simp
  have hexponent : IsExponent ('e' :: ([sign] ++ c :: tail)) :=
    .digits (.inl rfl) hmem (hpower c List.mem_cons_self)
      fun d hd => hpower d (List.mem_cons_of_mem c hd)
  exact ⟨whole, fraction, _, ⟨.inl rfl, hwhole, hfraction, hexponent⟩, rfl⟩

/-- The first of some digits is a whole part. -/
theorem isWhole_take_one {cs : List Char} (hsome : cs ≠ []) (h : AllDigits cs) :
    IsWhole (cs.take 1) := by
  obtain ⟨c, tail, rfl⟩ := List.exists_cons_of_ne_nil hsome
  by_cases hzero : c = '0'
  · rw [hzero]
    exact .zero
  · exact .digits hzero (h c List.mem_cons_self) fun d hd => by cases hd

/-! ## Digits without a zero in front -/

/-- Digits of which the first is no zero. -/
def IsLeading (cs : List Char) : Prop :=
  ∃ c tail, cs = c :: tail ∧ c ≠ '0' ∧ Text.isAsciiDigit c = true ∧ AllDigits tail

namespace IsLeading

variable {cs : List Char}

theorem isWhole (h : IsLeading cs) : IsWhole cs := by
  obtain ⟨c, tail, rfl, hzero, hc, htail⟩ := h
  exact .digits hzero hc htail

/-- Further digits may follow. -/
theorem append (h : IsLeading cs) {more : List Char} (hmore : AllDigits more) :
    IsLeading (cs ++ more) := by
  obtain ⟨c, tail, rfl, hzero, hc, htail⟩ := h
  exact ⟨c, tail ++ more, rfl, hzero, hc, allDigits_append htail hmore⟩

/-- Digits may be cut off at the end, unless none is left. -/
theorem of_prefix (h : IsLeading cs) {front : List Char} (hfront : front <+: cs)
    (hsome : front ≠ []) : IsLeading front := by
  obtain ⟨c, tail, rfl, hzero, hc, htail⟩ := h
  obtain ⟨first, rest, rfl⟩ := List.exists_cons_of_ne_nil hsome
  obtain ⟨rfl, hrest⟩ := List.cons_prefix_cons.mp hfront
  exact ⟨first, rest, rfl, hzero, hc, fun d hd => htail d (hrest.subset hd)⟩

/-- A point may stand anywhere among the digits. -/
theorem isMagnitude_cut (h : IsLeading cs) {count : Nat} (hfirst : 0 < count)
    (hlast : count < cs.length) : IsMagnitude (cs.take count ++ ['.'] ++ cs.drop count) := by
  obtain ⟨c, tail, rfl, -, hc, htail⟩ := id h
  have hall : AllDigits ([c] ++ tail) := by
    refine allDigits_append (fun d hd => ?_) htail
    rw [List.mem_singleton.mp hd]
    exact hc
  have hfront : (c :: tail).take count ≠ [] := by simp [hfirst.ne']
  have hback : (c :: tail).drop count ≠ [] := by
    rw [Ne, List.drop_eq_nil_iff]
    exact Nat.not_le.mpr hlast
  have hmagnitude := (h.of_prefix (List.take_prefix count _) hfront).isWhole.isMagnitude_point
    hback fun d hd => hall d (List.mem_of_mem_drop hd)
  simpa using hmagnitude

end IsLeading

end Json

namespace Number

open Json

/-! ## Integers -/

theorem allDigits_decimal (n : Nat) : AllDigits (decimal n) := by
  intro c hc
  have hdigit : c.isDigit = true := Nat.isDigit_of_mem_toDigits (by decide) (by decide) hc
  simpa [Text.isAsciiDigit, Char.isDigit, Char.le_def] using hdigit

/-- A positive number is not written with a zero in front. -/
theorem isLeading_decimal {n : Nat} (h : 0 < n) : IsLeading (decimal n) := by
  -- The first digit is that of the number without its last digit.
  have hfirst : ∃ c tail, decimal n = c :: tail ∧ c ≠ '0' := by
    induction n using Nat.strongRecOn with
    | ind n ih =>
      rw [decimal, Nat.toDigits_eq_if (by decide)]
      split
      · exact ⟨n.digitChar, [], rfl, fun hzero => Nat.ne_of_gt h (Nat.digitChar_eq_zero.mp hzero)⟩
      · rename_i hlarge
        have hpos : 0 < n / 10 := Nat.div_pos (Nat.not_lt.mp hlarge) (by decide)
        obtain ⟨c, tail, hdigits, hc⟩ := ih (n / 10) (Nat.div_lt_self h (by decide)) hpos
        rw [decimal] at hdigits
        rw [hdigits]
        exact ⟨c, tail ++ [(n % 10).digitChar], rfl, hc⟩
  obtain ⟨c, tail, hdigits, hc⟩ := hfirst
  have hall := allDigits_decimal n
  rw [hdigits] at hall ⊢
  exact ⟨c, tail, rfl, hc, hall c List.mem_cons_self,
    fun d hd => hall d (List.mem_cons_of_mem c hd)⟩

theorem isMagnitude_decimal (n : Nat) : IsMagnitude (decimal n) := by
  rcases Nat.eq_zero_or_pos n with rfl | hpos
  · exact IsWhole.zero.isMagnitude
  · exact (isLeading_decimal hpos).isWhole.isMagnitude

/-- The decimal text of an integer is a literal. -/
theorem isNumber_decimalText (n : Int) : IsNumber (decimalText n) := by
  unfold decimalText
  split
  · exact (isMagnitude_decimal n.natAbs).isNumber_neg
  · exact (isMagnitude_decimal n.natAbs).isNumber

/-- An integer can be written just if it has few enough digits. -/
theorem isTooLong_eq_false_iff {n : Int} :
    isTooLong n = false ↔ (decimal n.natAbs).length ≤ maxDigits := by
  rw [decimal, Nat.length_toDigits_le_iff (by decide) (by decide)]
  simp [isTooLong]

/-! ## Finite numbers -/

theorem allDigits_significantDigits (n : Nat) : AllDigits (significantDigits n) := by
  unfold significantDigits
  split
  · intro c hc
    rw [List.mem_singleton.mp hc]
    decide
  · intro c hc
    refine allDigits_decimal n c ?_
    exact List.mem_reverse.mp ((List.dropWhile_suffix _).subset (List.mem_reverse.mp hc))

theorem significantDigits_ne_nil (n : Nat) : significantDigits n ≠ [] := by
  unfold significantDigits
  split
  · simp
  · assumption

/-- The zeros at the end of a positive number are never all of its digits. -/
theorem isLeading_significantDigits {n : Nat} (h : 0 < n) : IsLeading (significantDigits n) := by
  have hleading := isLeading_decimal h
  have hfront : ((decimal n).reverse.dropWhile (· == '0')).reverse <+: decimal n := by
    rw [← List.reverse_suffix, List.reverse_reverse]
    exact List.dropWhile_suffix _
  have hsome : ((decimal n).reverse.dropWhile (· == '0')).reverse ≠ [] := by
    intro hnone
    obtain ⟨c, tail, hdigits, hc, -⟩ := hleading
    rw [List.reverse_eq_nil_iff, List.dropWhile_eq_nil_iff] at hnone
    have hzero := hnone c (List.mem_reverse.mpr (hdigits ▸ List.mem_cons_self))
    exact hc (beq_iff_eq.mp hzero)
  have hdigits : significantDigits n =
      ((decimal n).reverse.dropWhile (· == '0')).reverse := by
    unfold significantDigits
    split
    · exact absurd ‹_› hsome
    · rfl
  rw [hdigits]
  exact hleading.of_prefix hfront hsome

/-- A decimal that is laid out is a literal. Of the decimals without value only the one with no
power of ten is: the zeros of the others would stand in front of each other. -/
theorem isMagnitude_write (layout : DecimalLayout) {d : Decimal}
    (h : 0 < d.digits ∨ d.exponent = 0) : IsMagnitude (layout.write d) := by
  have hall := allDigits_significantDigits d.digits
  have hsome := significantDigits_ne_nil d.digits
  have hleading : IsLeading (significantDigits d.digits) ∨
      d.digits = 0 ∧ d.exponent = 0 := by
    rcases Nat.eq_zero_or_pos d.digits with hzero | hpos
    · exact .inr ⟨hzero, h.resolve_left (by omega)⟩
    · exact .inl (isLeading_significantDigits hpos)
  unfold DecimalLayout.write
  simp only
  split
  · split
    -- Zeros stand between the point and the digits.
    · have hzeros := allDigits_append
        (allDigits_zeros (-(d.exponent + (decimal d.digits).length)).toNat) hall
      exact IsWhole.zero.isMagnitude_point (by simp [hsome]) hzeros
    · rename_i hpoint
      split
      -- Zeros stand between the digits and the point.
      · have hwhole : IsWhole (significantDigits d.digits ++ List.replicate
            ((d.exponent + (decimal d.digits).length).toNat -
              (significantDigits d.digits).length) '0') := by
          rcases hleading with hleading | ⟨hdigits, hexponent⟩
          · exact (hleading.append (allDigits_zeros _)).isWhole
          · rw [hdigits, hexponent]
            exact .zero
        exact hwhole.isMagnitude_point (List.cons_ne_nil '0' []) (allDigits_zeros 1)
      -- The point stands among the digits.
      · rename_i hlong
        rcases hleading with hleading | ⟨hdigits, hexponent⟩
        · exact hleading.isMagnitude_cut (by omega) (Nat.not_le.mp hlong)
        -- The one digit of a zero does not reach beyond the point.
        · rw [hdigits, hexponent] at hlong
          exact absurd (by decide) hlong
  -- One digit stands in front of the power of ten, and the others are a fraction.
  · simp only [List.append_assoc, List.cons_append, List.nil_append]
    refine (isWhole_take_one hsome hall).isMagnitude_power ?_ ?_ ?_ ?_
    · split
      · exact .none
      · rename_i hrest
        exact isFraction_point hrest fun c hc => hall c (List.mem_of_mem_drop hc)
    · split <;> simp
    · simp [decimal, Nat.toDigits_ne_nil]
    · exact allDigits_append (allDigits_zeros _) (allDigits_decimal _)

namespace RoundingInterval

/-- Only positive numbers round to a positive number. -/
theorem low_pos {significand : Nat} (h : 0 < significand) (exponent : Int) :
    0 < (RoundingInterval.of significand exponent).low := by
  have hpower : 0 < Nat.pow 2 (exponent - 2).toNat := Nat.pow_pos (by decide)
  refine Nat.mul_pos ?_ hpower
  split <;> omega

/-- An interval of positive numbers does not hold zero. -/
theorem digits_pos_of_holds {i : RoundingInterval} (hlow : 0 < i.low) {d : Decimal}
    (h : i.holds d = true) : 0 < d.digits := by
  refine Nat.pos_of_ne_zero fun hzero => ?_
  have hgrid : 0 < i.low * Nat.pow 10 (-d.exponent).toNat :=
    Nat.mul_pos hlow (Nat.pow_pos (by decide))
  simp only [holds, hzero, Nat.zero_mul] at h
  split at h
  · simp only [Bool.and_eq_true, decide_eq_true_eq] at h
    omega
  · simp only [Bool.and_eq_true, decide_eq_true_eq] at h
    omega

theorem nearer_eq_or (i : RoundingInterval) (lower upper : Decimal) :
    i.nearer lower upper = lower ∨ i.nearer lower upper = upper := by
  unfold nearer
  simp only
  split
  · exact .inr rfl
  · split
    · exact .inl rfl
    · split
      · exact .inl rfl
      · exact .inr rfl

/-- A neighbour lies in the interval. -/
theorem holds_of_neighbour? {i : RoundingInterval} {point : Int} {count : Nat} {d : Decimal}
    (h : i.neighbour? point count = some d) : i.holds d = true := by
  unfold neighbour? at h
  simp only at h
  split at h
  · rename_i hlower hupper
    obtain rfl := Option.some.inj h
    rcases i.nearer_eq_or _ _ with hnearer | hnearer <;> rw [hnearer] <;> assumption
  · obtain rfl := Option.some.inj h
    assumption
  · obtain rfl := Option.some.inj h
    assumption
  · cases h

end RoundingInterval

/-- The shortest digits of a positive number have a value, unless they are a lone zero. -/
theorem digits_shortest {significand : Nat} (h : 0 < significand) (exponent : Int) :
    0 < (shortest significand exponent).digits ∨ (shortest significand exponent).exponent = 0 := by
  unfold shortest
  simp only
  generalize hsearch : (List.range 17).findSome? _ = found
  cases found with
  | none => exact .inr rfl
  | some d =>
    obtain ⟨_, -, hneighbour⟩ := List.exists_of_findSome?_eq_some hsearch
    exact .inl (RoundingInterval.digits_pos_of_holds (RoundingInterval.low_pos h exponent)
      (RoundingInterval.holds_of_neighbour? hneighbour))

theorem isMagnitude_magnitudeText (significand : Nat) (exponent : Int) :
    IsMagnitude (magnitudeText significand exponent) := by
  unfold magnitudeText
  split
  · exact IsWhole.zero.isMagnitude_point (List.cons_ne_nil '0' []) (allDigits_zeros 1)
  · rename_i hsome
    exact isMagnitude_write standardLayout (digits_shortest (Nat.pos_of_ne_zero hsome) exponent)

/-- The text of a finite number is a literal, whatever the words for other numbers are. -/
theorem isNumber_text {x : Binary64} (h : x.isFinite = true) (words : SpecialWords) :
    IsNumber (x.text words).toList := by
  cases x with
  | finite negative significand exponent =>
    have hmagnitude := isMagnitude_magnitudeText significand exponent
    rw [Binary64.text, String.toList_ofList]
    cases negative with
    | true => exact hmagnitude.isNumber_neg
    | false => exact hmagnitude.isNumber
  | infinite negative => cases h
  | nan => cases h

end Number

end Runbook
