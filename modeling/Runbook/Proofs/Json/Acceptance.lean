import Mathlib.Data.List.Induction
import Mathlib.Data.List.Nodup
import Runbook.Proofs.Json.RoundTrip
import Runbook.Proofs.Json.Soundness

/-!
# What the strict reader accepts

The strict reader accepts the texts of the grammar and no others, and gives the values that they
denote. Such a value is always well-formed: in its objects every key stands once.

The module introduces:

* `Json.Cause.IsStrict`: the causes for which the strict reader refuses a text;
* `Json.FaultsStrict`: the invariant of the reader with some fuel that no other cause comes up.

What becomes of repeated keys is said by `Json.keys_collapse` and `Json.lookup_collapse`, and
`Json.wellFormed_of_parse` says that a value that was read can be written and read again. The main
result is `Json.parse_accepts_exactly`.
-/

namespace Runbook

/-- What stands under a name is found under it, if the names differ. -/
theorem lookup_of_mem {α : Type} {entries : List (String × α)}
    (hnames : (entries.map Prod.fst).Nodup) {name : String} {a : α} (h : (name, a) ∈ entries) :
    entries.lookup name = some a := by
  obtain ⟨before, after, rfl⟩ := List.append_of_mem h
  refine List.lookup_eq_some_iff.mpr ⟨before, after, rfl, fun entry hentry => ?_⟩
  -- An entry before has another name.
  rw [List.map_append, List.map_cons] at hnames
  have hne : entry.1 ≠ name :=
    (List.nodup_append.mp hnames).2.2 entry.1 (List.mem_map_of_mem hentry) name
      List.mem_cons_self
  exact bne_iff_ne.mpr hne.symm

/-- What is found under a name stands there. -/
theorem mem_of_lookup {α : Type} {entries : List (String × α)} {name : String} {a : α}
    (h : entries.lookup name = some a) : (name, a) ∈ entries := by
  obtain ⟨before, after, rfl, -⟩ := List.lookup_eq_some_iff.mp h
  exact List.mem_append_right _ List.mem_cons_self

namespace Json

/-! ## Repeated keys -/

section Members

variable (members : List (String × Json))

/-- A member that comes after others is put among them. -/
theorem collapse_concat (member : String × Json) :
    collapse (members ++ [member]) = putMember member.1 member.2 (collapse members) := by
  rw [collapse, List.foldl_append]
  rfl

theorem lookup_cons_eq_ite (key name : String) (value : Json) :
    ((name, value) :: members).lookup key =
      if key = name then some value else members.lookup key := by
  rw [List.lookup_cons]
  by_cases h : key = name
  · rw [if_pos h, beq_iff_eq.mpr h]
  · rw [if_neg h, beq_eq_false_iff_ne.mpr h]

theorem lookup_putMember (key name : String) (value : Json) :
    (putMember name value members).lookup key =
      if key = name then some value else members.lookup key := by
  induction members with
  | nil => exact lookup_cons_eq_ite [] key name value
  | cons member members ih =>
    obtain ⟨k, v⟩ := member
    rw [putMember]
    by_cases hk : k = name
    · subst hk
      rw [if_pos rfl, lookup_cons_eq_ite, lookup_cons_eq_ite]
      by_cases h : key = k
      · rw [if_pos h, if_pos h]
      · rw [if_neg h, if_neg h, if_neg h]
    · rw [if_neg hk, lookup_cons_eq_ite, lookup_cons_eq_ite, ih]
      by_cases h : key = k
      · subst h
        rw [if_pos rfl, if_neg hk, if_pos rfl]
      · rw [if_neg h, if_neg h]

/-- Every key stands once, at its first place. -/
theorem keys_collapse :
    (collapse members).map Prod.fst = (members.map Prod.fst).eraseDups := by
  induction members using List.reverseRecOn with
  | nil => rfl
  | append_singleton members member ih =>
    rw [collapse_concat, map_fst_putMember, ih, List.map_append, List.eraseDups_append]
    -- The key of the last member is new, or it stands at an earlier place already.
    by_cases h : member.1 ∈ members.map Prod.fst
    · rw [if_pos (List.mem_eraseDups.mpr h)]
      simp [List.removeAll, h]
    · rw [if_neg (mt List.mem_eraseDups.mp h)]
      simp [List.removeAll, h, List.eraseDups_cons]

/-- Every key has the value that was written last. -/
theorem lookup_collapse (key : String) :
    (collapse members).lookup key = members.reverse.lookup key := by
  induction members using List.reverseRecOn with
  | nil => rfl
  | append_singleton members member ih =>
    obtain ⟨k, v⟩ := member
    rw [collapse_concat, lookup_putMember, ih, List.reverse_concat, lookup_cons_eq_ite]

theorem nodup_keys_collapse : ((collapse members).map Prod.fst).Nodup := by
  induction members using List.reverseRecOn with
  | nil => exact List.nodup_nil
  | append_singleton members member ih =>
    rw [collapse_concat, map_fst_putMember]
    split
    · exact ih
    · rename_i hfresh
      rw [← List.concat_eq_append]
      exact ih.concat hfresh

end Members

/-! ## Values that are read -/

theorem wellFormedItems_iff {items : List Json} :
    WellFormedItems items ↔ ∀ item ∈ items, item.WellFormed := by
  induction items with
  | nil => simp [WellFormedItems]
  | cons item items ih => simp [WellFormedItems, ih]

theorem wellFormedMembers_iff {members : List (String × Json)} :
    WellFormedMembers members ↔ ∀ member ∈ members, member.2.WellFormed := by
  induction members with
  | nil => simp [WellFormedMembers]
  | cons member members ih => simp [WellFormedMembers, ih]

/-- A member among which another one was put is that one or was there before. -/
theorem mem_of_mem_putMember {name : String} {value : Json} {members : List (String × Json)}
    {member : String × Json} (h : member ∈ putMember name value members) :
    member.2 = value ∨ member ∈ members := by
  induction members with
  | nil =>
    obtain rfl := List.mem_singleton.mp h
    exact .inl rfl
  | cons first members ih =>
    obtain ⟨k, v⟩ := first
    rw [putMember] at h
    split at h
    · rcases List.mem_cons.mp h with rfl | h
      · exact .inl rfl
      · exact .inr (List.mem_cons_of_mem _ h)
    · rcases List.mem_cons.mp h with rfl | h
      · exact .inr List.mem_cons_self
      · exact (ih h).imp_right (List.mem_cons_of_mem _)

theorem wellFormedMembers_collapse {members : List (String × Json)}
    (h : WellFormedMembers members) : WellFormedMembers (collapse members) := by
  rw [wellFormedMembers_iff] at h ⊢
  induction members using List.reverseRecOn with
  | nil => exact h
  | append_singleton members member ih =>
    intro other hother
    rw [collapse_concat] at hother
    rcases mem_of_mem_putMember hother with heq | hother
    · rw [heq]
      exact h member (by simp)
    · exact ih (fun m hm => h m (List.mem_append_left _ hm)) other hother

theorem wellFormed_of_mem_words {cs : List Char} {j : Json} (h : (cs, j) ∈ words) :
    j.WellFormed := by
  simp only [words, List.mem_cons, List.not_mem_nil, or_false, Prod.mk.injEq] at h
  rcases h with ⟨-, rfl⟩ | ⟨-, rfl⟩ | ⟨-, rfl⟩ <;> trivial

mutual

/-- A value that a text denotes is well-formed: the literals of its numbers are those of the text,
and of the members with one key only one is kept. -/
theorem wellFormed_of_denotes {cs : List Char} {j : Json} (h : Denotes cs j) : j.WellFormed := by
  match h with
  | .word hword => exact wellFormed_of_mem_words hword
  | .number hnumber =>
    rw [WellFormed, String.toList_ofList]
    exact hnumber
  | .string _ => trivial
  | .emptyArray _ => trivial
  | .array _ hitems => exact wellFormedItems_of_denotes hitems
  | .emptyObject _ => exact ⟨List.nodup_nil, trivial⟩
  | .object _ hmembers =>
    have hvalues := wellFormedMembers_of_denotes hmembers
    exact ⟨nodup_keys_collapse _, wellFormedMembers_collapse hvalues⟩

theorem wellFormedItems_of_denotes {cs : List Char} {items : List Json}
    (h : DenotesItems cs items) : WellFormedItems items := by
  match h with
  | .last hitem _ => exact ⟨wellFormed_of_denotes hitem, trivial⟩
  | .cons hitem _ _ hitems =>
    exact ⟨wellFormed_of_denotes hitem, wellFormedItems_of_denotes hitems⟩

theorem wellFormedMembers_of_denotes {cs : List Char} {members : List (String × Json)}
    (h : DenotesMembers cs members) : WellFormedMembers members := by
  match h with
  | .last hmember _ => exact ⟨wellFormed_of_denotesMember hmember, trivial⟩
  | .cons hmember _ _ hmembers =>
    exact ⟨wellFormed_of_denotesMember hmember, wellFormedMembers_of_denotes hmembers⟩

theorem wellFormed_of_denotesMember {cs : List Char} {member : String × Json}
    (h : DenotesMember cs member) : member.2.WellFormed := by
  match h with
  | .intro _ _ _ hvalue => exact wellFormed_of_denotes hvalue

end

/-! ## Refusals -/

/-- Why the strict reader refuses a text: for a fault that is told with its place, or for a word for
a value that is no finite number. -/
def Cause.IsStrict (cause : Cause) : Prop :=
  cause.hasPlace = true ∨ ∃ word ∈ constantWords, cause = .constant (String.ofList word)

/-- A computation whose result is changed fails as it failed before. -/
theorem of_map_eq_error {ε α β : Type} {f : α → β} {x : Except ε α} {e : ε}
    (h : x.map f = .error e) : x = .error e := by
  cases x with
  | error e' => exact congrArg Except.error (Except.error.inj h)
  | ok a => cases h

theorem isStrict_of_readCodes {whole cs : List Char} {fault : Fault}
    (h : readCodes whole cs = .error fault) : fault.cause.IsStrict := by
  fun_induction readCodes whole cs with
  | case2 => cases h
  -- A character is read, and the fault is one of what follows.
  | case4 _ _ _ _ _ _ _ _ _ ih => exact ih (of_map_eq_error h)
  | case7 _ _ _ _ _ _ ih => exact ih (of_map_eq_error h)
  | case10 _ _ _ _ _ ih => exact ih (of_map_eq_error h)
  -- The fault is found here.
  | case1 | case3 | case5 | case6 | case8 | case9 =>
    cases h
    exact .inl rfl

theorem isStrict_of_readString {whole cs : List Char} {fault : Fault}
    (h : readString whole cs = .error fault) : fault.cause.IsStrict :=
  isStrict_of_readCodes (of_map_eq_error h)

theorem isStrict_of_readScalar {cs : List Char} {fault : Fault}
    (h : readScalar .strict cs = .error fault) : fault.cause.IsStrict := by
  unfold readScalar at h
  split at h
  · cases h
  · split at h
    · rename_i word hfind
      cases h
      exact .inr ⟨word, List.mem_of_find?_eq_some hfind, rfl⟩
    · split at h
      · cases h
        exact .inl rfl
      -- The number of digits is not bounded here.
      · cases h

/-- All faults that the reader with some fuel finds are of the strict kind. -/
structure FaultsStrict (fuel : Nat) : Prop where
  /-- Faults of values. -/
  value {cs : List Char} {fault : Fault} :
    readValue .strict fuel cs = .error fault → fault.cause.IsStrict
  /-- Faults of items. -/
  items {cs : List Char} {fault : Fault} :
    readItems .strict fuel cs = .error fault → fault.cause.IsStrict
  /-- Faults of members. -/
  members {cs : List Char} {fault : Fault} :
    readMembers .strict fuel cs = .error fault → fault.cause.IsStrict

section Fuel

variable {fuel : Nat} {cs : List Char} {fault : Fault}

theorem isStrict_of_readValue (hfaults : FaultsStrict fuel)
    (h : readValue .strict (fuel + 1) cs = .error fault) : fault.cause.IsStrict := by
  cases cs with
  | nil =>
    cases h
    exact .inl rfl
  | cons c cs =>
    rw [readValue] at h
    split at h
    · exact isStrict_of_readString (of_map_eq_error h)
    · split at h
      · split at h
        · cases h
        · exact hfaults.members (of_map_eq_error h)
      · split at h
        · split at h
          · cases h
          · exact hfaults.items (of_map_eq_error h)
        · exact isStrict_of_readScalar h

theorem isStrict_of_readItems (hfaults : FaultsStrict fuel)
    (h : readItems .strict (fuel + 1) cs = .error fault) : fault.cause.IsStrict := by
  rw [readItems] at h
  split at h
  · rename_i hvalue
    cases h
    exact hfaults.value hvalue
  · split at h
    · cases h
    · exact hfaults.items (of_map_eq_error h)
    · cases h
      exact .inl rfl

theorem isStrict_of_readMembers (hfaults : FaultsStrict fuel)
    (h : readMembers .strict (fuel + 1) cs = .error fault) : fault.cause.IsStrict := by
  unfold readMembers at h
  split at h
  · split at h
    · rename_i hkey
      cases h
      exact isStrict_of_readString hkey
    · split at h
      · split at h
        · rename_i hvalue
          cases h
          exact hfaults.value hvalue
        · split at h
          · cases h
          · exact hfaults.members (of_map_eq_error h)
          · cases h
            exact .inl rfl
      · cases h
        exact .inl rfl
  · cases h
    exact .inl rfl

end Fuel

theorem faultsStrict (fuel : Nat) : FaultsStrict fuel := by
  induction fuel with
  | zero =>
    refine ⟨?_, ?_, ?_⟩ <;>
    · intro cs fault h
      cases h
      exact .inl rfl
  | succ fuel ih =>
    exact ⟨isStrict_of_readValue ih, isStrict_of_readItems ih, isStrict_of_readMembers ih⟩

theorem isStrict_of_readWhole {cs : List Char} {fault : Fault}
    (h : readWhole .strict cs = .error fault) : fault.cause.IsStrict := by
  rw [readWhole] at h
  simp only [Dialect.strict, Bool.false_and, Bool.false_eq_true, if_false] at h
  split at h
  · rename_i hread
    cases h
    exact (faultsStrict _).value hread
  · split at h
    · cases h
    · cases h
      exact .inl rfl

theorem isStrict_of_parse {s : String} {e : Error} (h : parse .strict s = .error e) :
    e.cause.IsStrict := by
  rw [parse] at h
  cases hread : readWhole .strict s.toList with
  | error fault =>
    rw [hread] at h
    cases h
    exact isStrict_of_readWhole hread
  | ok value =>
    rw [hread] at h
    cases h

/-! ## Whole texts -/

/-- A text is read as a value just if it denotes the value. -/
theorem parse_eq_ok_iff {s : String} {j : Json} :
    parse .strict s = .ok j ↔ DenotesWhole s.toList j :=
  ⟨denotesWhole_of_parse, parse_of_denotes⟩

/-- What is read is well-formed. -/
theorem wellFormed_of_parse {s : String} {j : Json} (h : parse .strict s = .ok j) :
    j.WellFormed := by
  obtain ⟨_, _, _, -, -, htext, -⟩ := denotesWhole_of_parse h
  exact wellFormed_of_denotes htext

/-- The strict reader accepts exactly the texts that denote a value, and reads each as the value
that it denotes; every other text it refuses, for a fault that is told with its place or for one of
the words `NaN`, `Infinity` and `-Infinity`. Of the members that an object is written with, those
with one key count as one, at the first place and with the last value. -/
theorem parse_accepts_exactly (s : String) :
    (∀ j, parse .strict s = .ok j ↔ DenotesWhole s.toList j) ∧
      ((∃ e, parse .strict s = .error e ∧ e.cause.IsStrict) ↔
        ¬∃ j, DenotesWhole s.toList j) ∧
      ∀ members, (collapse members).map Prod.fst = (members.map Prod.fst).eraseDups ∧
        ∀ key, (collapse members).lookup key = members.reverse.lookup key := by
  refine ⟨fun j => parse_eq_ok_iff, ⟨?_, ?_⟩, fun members => ?_⟩
  · rintro ⟨e, hrefused, -⟩ ⟨j, hdenotes⟩
    cases hrefused.symm.trans (parse_of_denotes hdenotes)
  · intro hnone
    cases h : parse .strict s with
    | error e => exact ⟨e, rfl, isStrict_of_parse h⟩
    | ok j => exact absurd ⟨j, denotesWhole_of_parse h⟩ hnone
  · exact ⟨keys_collapse members, lookup_collapse members⟩

end Json

end Runbook
