import Mathlib.Data.List.Basic
import Runbook.Text.Surrogate
import Runbook.Text.Utf8

/-!
# What octets encode

A character takes one to four octets, of which the first tells how many follow and each of the
others carries six bits of its number. No shorter form is written for a character than the shortest,
and the halves of pairs have no form. The octets of a text are read as this text, and no other
octets are.

The module introduces `Text.Utf8.Carries`: the octets that carry the number of a character. The main
results are `Text.Utf8.decode_eq_ok_iff` and `Text.Utf8.toByteArray_encode`, by which the octets of
a text are also those of the core library.
-/

namespace Runbook.Text.Utf8

/-- An octet that stands behind the first one of a character. -/
def IsTail (b : UInt8) : Prop := 0x80 ≤ b.toNat ∧ b.toNat ≤ 0xBF

/-- The octets that carry the number of a character. -/
inductive Carries : List UInt8 → Nat → Prop
  | one {a : UInt8} : a.toNat < 0x80 → Carries [a] a.toNat
  | two {a b : UInt8} : 0xC2 ≤ a.toNat → a.toNat ≤ 0xDF → IsTail b →
      Carries [a, b] (a.toNat % 32 * 64 + b.toNat % 64)
  | three {a b c : UInt8} : 0xE0 ≤ a.toNat → a.toNat ≤ 0xEF → IsTail b → IsTail c →
      (a.toNat = 0xE0 → 0xA0 ≤ b.toNat) → (a.toNat = 0xED → b.toNat ≤ 0x9F) →
      Carries [a, b, c] ((a.toNat % 16 * 64 + b.toNat % 64) * 64 + c.toNat % 64)
  | four {a b c d : UInt8} : 0xF0 ≤ a.toNat → a.toNat ≤ 0xF4 → IsTail b → IsTail c → IsTail d →
      (a.toNat = 0xF0 → 0x90 ≤ b.toNat) → (a.toNat = 0xF4 → b.toNat ≤ 0x8F) →
      Carries [a, b, c, d]
        (((a.toNat % 8 * 64 + b.toNat % 64) * 64 + c.toNat % 64) * 64 + d.toNat % 64)

variable {count low high seen code n : Nat} {b lead : UInt8} {bs : List UInt8} {c : Char}

/-! ## Octets and numbers -/

theorem toNat_toUInt8 (h : n < 256) : n.toUInt8.toNat = n := by
  rw [Nat.toUInt8, UInt8.toNat_ofNat', Nat.mod_eq_of_lt h]

theorem toUInt8_of_eq (h : n = b.toNat) : n.toUInt8 = b := by
  rw [h]
  exact UInt8.ofNat_toNat

/-- The numbers that octets carry are numbers of characters. -/
theorem Carries.toNat_ofNat (h : Carries bs n) : (Char.ofNat n).toNat = n := by
  apply Text.toNat_ofNat
  unfold Nat.isValidChar
  cases h with
  | one => omega
  | two => omega
  | three _ _ hb hc => unfold IsTail at hb hc; omega
  | four _ _ hb hc hd => unfold IsTail at hb hc hd; omega

/-- The octets of a character carry its number. -/
theorem carries_encodeChar (c : Char) : Carries (encodeChar c) c.toNat := by
  have hvalid : c.toNat < 0xD800 ∨ 0xDFFF < c.toNat ∧ c.toNat < 0x110000 := c.valid
  unfold encodeChar
  dsimp only
  generalize c.toNat = n at hvalid
  have htail (m : Nat) : (0x80 + m % 64).toUInt8.toNat = 0x80 + m % 64 := toNat_toUInt8 (by omega)
  have htails (m : Nat) : IsTail (0x80 + m % 64).toUInt8 := by
    rw [IsTail, htail]
    omega
  -- The number decides how many octets there are: it has 7, 11, 16 or 21 bits.
  split
  case isTrue =>
    have hlead : n.toUInt8.toNat = n := toNat_toUInt8 (by omega)
    have hcarries := Carries.one (a := n.toUInt8) (by omega)
    rwa [hlead] at hcarries
  case isFalse =>
    split
    case isTrue =>
      have hlead : (0xC0 + n / 64).toUInt8.toNat = 0xC0 + n / 64 := toNat_toUInt8 (by omega)
      have hcarries := Carries.two (a := (0xC0 + n / 64).toUInt8) (by omega) (by omega) (htails n)
      have hnumber : (0xC0 + n / 64) % 32 * 64 + (0x80 + n % 64) % 64 = n := by omega
      rwa [hlead, htail, hnumber] at hcarries
    case isFalse =>
      split
      case isTrue =>
        have hlead : (0xE0 + n / 4096).toUInt8.toNat = 0xE0 + n / 4096 := toNat_toUInt8 (by omega)
        have hcarries := Carries.three (a := (0xE0 + n / 4096).toUInt8) (by omega) (by omega)
          (htails (n / 64)) (htails n) (by rw [htail]; omega) (by rw [htail]; omega)
        have hnumber : ((0xE0 + n / 4096) % 16 * 64 + (0x80 + n / 64 % 64) % 64) * 64 +
            (0x80 + n % 64) % 64 = n := by omega
        rwa [hlead, htail, htail, hnumber] at hcarries
      case isFalse =>
        have hlead : (0xF0 + n / 262144).toUInt8.toNat = 0xF0 + n / 262144 :=
          toNat_toUInt8 (by omega)
        have hcarries := Carries.four (a := (0xF0 + n / 262144).toUInt8) (by omega) (by omega)
          (htails (n / 4096)) (htails (n / 64)) (htails n) (by rw [htail]; omega)
          (by rw [htail]; omega)
        have hnumber : (((0xF0 + n / 262144) % 8 * 64 + (0x80 + n / 4096 % 64) % 64) * 64 +
            (0x80 + n / 64 % 64) % 64) * 64 + (0x80 + n % 64) % 64 = n := by omega
        rwa [hlead, htail, htail, htail, hnumber] at hcarries

/-- Octets that carry a number are those of the character of this number. -/
theorem Carries.encodeChar_eq (h : Carries bs n) : encodeChar (Char.ofNat n) = bs := by
  unfold encodeChar
  rw [h.toNat_ofNat]
  -- The bounds on the octets exclude that fewer octets would do for the number.
  cases h with
  | one ha => rw [if_pos ha, toUInt8_of_eq rfl]
  | @two a b ha ha' hb =>
    unfold IsTail at hb
    rw [if_neg (by omega), if_pos (by omega), toUInt8_of_eq (b := a) (by omega),
      toUInt8_of_eq (b := b) (by omega)]
  | @three a b c ha ha' hb hc hlow hhigh =>
    unfold IsTail at hb hc
    rw [if_neg (by omega), if_neg (by omega), if_pos (by omega), toUInt8_of_eq (b := a) (by omega),
      toUInt8_of_eq (b := b) (by omega), toUInt8_of_eq (b := c) (by omega)]
  | @four a b c d ha ha' hb hc hd hlow hhigh =>
    unfold IsTail at hb hc hd
    rw [if_neg (by omega), if_neg (by omega), if_neg (by omega), toUInt8_of_eq (b := a) (by omega),
      toUInt8_of_eq (b := b) (by omega), toUInt8_of_eq (b := c) (by omega),
      toUInt8_of_eq (b := d) (by omega)]

/-! ## The octets of the core library -/

/-- The octets of a character are those that the core library gives it. -/
theorem encodeChar_eq_utf8EncodeChar (c : Char) : encodeChar c = String.utf8EncodeChar c := by
  have hvalid : c.toNat < 0xD800 ∨ 0xDFFF < c.toNat ∧ c.toNat < 0x110000 := c.valid
  have hnumber : c.val.toNat = c.toNat := rfl
  unfold encodeChar String.utf8EncodeChar
  dsimp only
  rw [hnumber]
  generalize c.toNat = n at hvalid
  simp only [← Nat.lt_succ_iff]
  -- The library cuts the first octet down to the bits it has, which changes nothing.
  split
  case isTrue => rfl
  case isFalse =>
    split
    case isTrue =>
      have hlead : 0xC0 + n / 64 = n / 64 % 32 + 192 := by omega
      rw [hlead, Nat.add_comm 0x80]
    case isFalse =>
      split
      case isTrue =>
        have hlead : 0xE0 + n / 4096 = n / 4096 % 16 + 224 := by omega
        rw [hlead, Nat.add_comm 0x80, Nat.add_comm 0x80]
      case isFalse =>
        have hlead : 0xF0 + n / 262144 = n / 262144 % 8 + 240 := by omega
        rw [hlead, Nat.add_comm 0x80, Nat.add_comm 0x80, Nat.add_comm 0x80]

/-- The octets of a text are those that the core library gives it. -/
theorem toByteArray_encode (s : String) : (encode s).toByteArray = s.toUTF8 := by
  have hchar : encodeChar = String.utf8EncodeChar := funext encodeChar_eq_utf8EncodeChar
  rw [encode, hchar, ← List.utf8Encode, ← String.toByteArray_ofList, String.ofList_toList,
    String.toUTF8_eq_toByteArray]

/-! ## Reading one character -/

theorem continuation_cons (hlow : low ≤ b.toNat) (hhigh : b.toNat ≤ high) :
    continuation (count + 1) low high seen code (b :: bs) =
      continuation count 0x80 0xBF (seen + 1) (code * 64 + b.toNat % 64) bs := by
  rw [continuation, if_pos ⟨hlow, hhigh⟩]

theorem of_continuation_succ (h : continuation (count + 1) low high seen code bs = .ok n) :
    ∃ b rest, bs = b :: rest ∧ low ≤ b.toNat ∧ b.toNat ≤ high ∧
      continuation count 0x80 0xBF (seen + 1) (code * 64 + b.toNat % 64) rest = .ok n := by
  cases bs with
  | nil => cases h
  | cons b rest =>
    rw [continuation] at h
    split at h
    case isTrue hrange => exact ⟨b, rest, rfl, hrange.1, hrange.2, h⟩
    case isFalse => cases h

/-- The octets that begin a character of several octets, with the bounds of the second one. -/
theorem shape?_eq (lead : Nat) :
    shape? lead =
      if 0xC2 ≤ lead ∧ lead ≤ 0xDF then some (1, 0x80, 0xBF)
      else if 0xE0 ≤ lead ∧ lead ≤ 0xEF then
        some (2, if lead = 0xE0 then 0xA0 else 0x80, if lead = 0xED then 0x9F else 0xBF)
      else if 0xF0 ≤ lead ∧ lead ≤ 0xF4 then
        some (3, if lead = 0xF0 then 0x90 else 0x80, if lead = 0xF4 then 0x8F else 0xBF)
      else none := by
  unfold shape?
  grind

/-- Octets that carry a number are read as the character of this number. -/
theorem Carries.decodeFirst_eq {tail : List UInt8} (h : Carries (lead :: tail) n)
    (rest : List UInt8) :
    decodeFirst lead (tail ++ rest) = .ok (Char.ofNat n, tail.length + 1) := by
  cases h with
  | one ha => rw [decodeFirst, if_pos ha]; rfl
  | two ha ha' hb =>
    unfold IsTail at hb
    rw [decodeFirst, if_neg (by omega), shape?_eq, if_pos ⟨ha, ha'⟩]
    dsimp only [List.cons_append]
    rw [continuation_cons hb.1 hb.2]
    rfl
  | three ha ha' hb hc hlow hhigh =>
    unfold IsTail at hb hc
    rw [decodeFirst, if_neg (by omega), shape?_eq, if_neg (by omega), if_pos ⟨ha, ha'⟩]
    dsimp only [List.cons_append]
    rw [continuation_cons (by split <;> omega) (by split <;> omega), continuation_cons hc.1 hc.2]
    rfl
  | four ha ha' hb hc hd hlow hhigh =>
    unfold IsTail at hb hc hd
    rw [decodeFirst, if_neg (by omega), shape?_eq, if_neg (by omega), if_neg (by omega),
      if_pos ⟨ha, ha'⟩]
    dsimp only [List.cons_append]
    rw [continuation_cons (by split <;> omega) (by split <;> omega), continuation_cons hc.1 hc.2,
      continuation_cons hd.1 hd.2]
    rfl

/-- What is read as a character are octets that carry its number. -/
theorem carries_of_decodeFirst (h : decodeFirst lead bs = .ok (c, count)) :
    ∃ tail rest, bs = tail ++ rest ∧ Carries (lead :: tail) c.toNat ∧ count = tail.length + 1 := by
  -- It is enough to know the octets: that they carry the number of the character they are read as.
  suffices ∃ tail rest n, bs = tail ++ rest ∧ Carries (lead :: tail) n by
    obtain ⟨tail, rest, n, rfl, hcarries⟩ := this
    rw [hcarries.decodeFirst_eq rest] at h
    obtain ⟨rfl, rfl⟩ := Prod.mk.inj (Except.ok.inj h)
    exact ⟨tail, rest, rfl, hcarries.toNat_ofNat.symm ▸ hcarries, rfl⟩
  unfold decodeFirst at h
  split at h
  case isTrue hone => exact ⟨[], bs, _, rfl, .one hone⟩
  case isFalse =>
    split at h
    case h_1 => cases h
    case h_2 further low high hshape =>
      split at h
      case h_2 => cases h
      case h_1 code hcode =>
        -- The first octet tells how many follow, and so how far to take them apart.
        rw [shape?_eq] at hshape
        split at hshape
        case isTrue hlead =>
          cases hshape
          obtain ⟨b, rest, rfl, hlow, hhigh, -⟩ := of_continuation_succ hcode
          exact ⟨[b], rest, _, rfl, .two hlead.1 hlead.2 ⟨hlow, hhigh⟩⟩
        case isFalse =>
          split at hshape
          case isTrue hlead =>
            cases hshape
            obtain ⟨b, _, rfl, hlow, hhigh, hcode⟩ := of_continuation_succ hcode
            obtain ⟨c, rest, rfl, hlow', hhigh', -⟩ := of_continuation_succ hcode
            refine ⟨[b, c], rest, _, rfl, .three hlead.1 hlead.2 ?_ ⟨hlow', hhigh'⟩ ?_ ?_⟩
            · constructor <;> grind
            · grind
            · grind
          case isFalse =>
            split at hshape
            case isTrue hlead =>
              cases hshape
              obtain ⟨b, _, rfl, hlow, hhigh, hcode⟩ := of_continuation_succ hcode
              obtain ⟨c, _, rfl, hlow', hhigh', hcode⟩ := of_continuation_succ hcode
              obtain ⟨d, rest, rfl, hlow'', hhigh'', -⟩ := of_continuation_succ hcode
              refine ⟨[b, c, d], rest, _, rfl,
                .four hlead.1 hlead.2 ?_ ⟨hlow', hhigh'⟩ ⟨hlow'', hhigh''⟩ ?_ ?_⟩
              · constructor <;> grind
              · grind
              · grind
            case isFalse => cases hshape

/-! ## Reading a text -/

/-- Octets of a character that has been read are passed over. -/
theorem decodeFrom_eq_drop (position skip : Nat) (bs : List UInt8) :
    decodeFrom position skip bs = decodeFrom (position + skip) 0 (bs.drop skip) := by
  induction bs generalizing position skip with
  | nil => cases skip <;> rfl
  | cons b bs ih =>
    cases skip with
    | zero => rfl
    | succ skip =>
      rw [decodeFrom, ih, List.drop_succ_cons]
      congr 1
      omega

/-- A character is read before what follows its octets. -/
theorem decodeFrom_encodeChar (position : Nat) (c : Char) (bs : List UInt8) :
    ∃ position', decodeFrom position 0 (encodeChar c ++ bs) =
      (decodeFrom position' 0 bs).map (c :: ·) := by
  have hcarries := carries_encodeChar c
  cases hoctets : encodeChar c with
  | nil =>
    rw [hoctets] at hcarries
    cases hcarries
  | cons lead tail =>
    rw [hoctets] at hcarries
    refine ⟨position + 1 + tail.length, ?_⟩
    rw [List.cons_append, decodeFrom, hcarries.decodeFirst_eq bs, Char.ofNat_toNat]
    dsimp only
    rw [Nat.add_sub_cancel, decodeFrom_eq_drop, List.drop_left]

theorem decodeFrom_flatMap (position : Nat) (cs : List Char) :
    decodeFrom position 0 (cs.flatMap encodeChar) = .ok cs := by
  induction cs generalizing position with
  | nil => rfl
  | cons c cs ih =>
    obtain ⟨position', hfirst⟩ := decodeFrom_encodeChar position c (cs.flatMap encodeChar)
    rw [List.flatMap_cons, hfirst, ih]
    rfl

theorem eq_flatMap_of_decodeFrom {position : Nat} {cs : List Char}
    (h : decodeFrom position 0 bs = .ok cs) : bs = cs.flatMap encodeChar := by
  -- One character is read after the other, each of which takes at least one octet.
  induction hlength : bs.length using Nat.strongRecOn generalizing position bs cs with
  | ind length ih =>
    cases bs with
    | nil =>
      obtain rfl : cs = [] := (Except.ok.inj h).symm
      rfl
    | cons lead bs =>
      rw [decodeFrom] at h
      split at h
      case h_2 => cases h
      case h_1 c count hfirst =>
        obtain ⟨tail, rest, rfl, hcarries, rfl⟩ := carries_of_decodeFirst hfirst
        rw [Nat.add_sub_cancel, decodeFrom_eq_drop, List.drop_left] at h
        cases hrest : decodeFrom (position + 1 + tail.length) 0 rest with
        | error fault => rw [hrest] at h; cases h
        | ok others =>
          rw [hrest] at h
          obtain rfl : cs = c :: others := (Except.ok.inj h).symm
          have hshorter : rest.length < length := by
            rw [← hlength, List.length_cons, List.length_append]
            omega
          have hoctets := hcarries.encodeChar_eq
          rw [Char.ofNat_toNat] at hoctets
          rw [List.flatMap_cons, hoctets, ← ih rest.length hshorter hrest rfl, List.cons_append]

/-- What is read as a text is what encodes it. -/
theorem decode_eq_ok_iff {s : String} : decode bs = .ok s ↔ bs = encode s := by
  unfold decode encode
  constructor
  · intro h
    cases hread : decodeFrom 0 0 bs with
    | error fault => rw [hread] at h; cases h
    | ok cs =>
      rw [hread] at h
      obtain rfl : s = String.ofList cs := (Except.ok.inj h).symm
      rw [String.toList_ofList]
      exact eq_flatMap_of_decodeFrom hread
  · rintro rfl
    rw [decodeFrom_flatMap]
    exact congrArg Except.ok String.ofList_toList

/-- Octets that cannot be read encode no text. -/
theorem exists_decode_eq_error_iff :
    (∃ fault, decode bs = .error fault) ↔ ∀ s, bs ≠ encode s := by
  cases hread : decode bs with
  | error fault =>
    refine iff_of_true ⟨fault, rfl⟩ fun s hs => ?_
    cases (decode_eq_ok_iff.mpr hs).symm.trans hread
  | ok s =>
    refine iff_of_false ?_ fun h => h s (decode_eq_ok_iff.mp hread)
    rintro ⟨fault, hfault⟩
    cases hfault

end Runbook.Text.Utf8
