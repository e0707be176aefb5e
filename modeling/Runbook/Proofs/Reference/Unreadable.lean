import Runbook.Proofs.Number.Index
import Runbook.Proofs.Text.Split
import Runbook.Reference.Pointer

/-!
# Indices that cannot be read

A path that comes to an array with a segment of digits asks for the number that the digits denote.
Where they cannot be read as one, following the path neither gives a value nor leads nowhere, and
this is the only such case: it is what keeps the reader that turns reasons into an answer from
giving one.

The module introduces:

* `Pointer.Steps`: a segment leads from a value to a part of it;
* `Pointer.MeetsUnreadable`, `Pointer.ComesToUnreadable`: a path, or a pointer, comes to an array
  with digits that cannot be read.

The main result is `Pointer.resolveSafe_outcomes`.
-/

namespace Runbook.Pointer

/-! ## One segment -/

/-- A segment leads from a value to a part of it: it is the key of a member, or a numeral for the
place of an item. -/
inductive Steps : Json → String → Json → Prop
  | member {members : List (String × Json)} {segment : String} {next : Json} :
    Json.member? segment members = some next → Steps (.object members) segment next
  | item {items : List Json} {segment : String} {index : Nat} {next : Json} :
    Number.IsNumeral segment index → items[index]? = some next →
    Steps (.array items) segment next

section Segment

variable {path segment : String} {current : Json}

/-- A segment is followed just to where it leads. -/
theorem follow_eq_ok_iff {next : Json} :
    follow path current segment = .ok next ↔ Steps current segment next := by
  constructor
  · intro h
    unfold follow at h
    split at h
    · split at h
      · rename_i hmember
        cases h
        exact .member hmember
      · cases h
    · split at h
      · rename_i hdigits
        split at h
        · cases h
        · rename_i hread
          obtain ⟨index, hnumeral, rfl⟩ := (Number.readInteger_eq_ok_iff hdigits).mp hread
          split at h
          · rename_i hitem
            cases h
            exact .item hnumeral hitem
          · cases h
      · cases h
    · cases h
  · intro h
    cases h with
    | member hmember => rw [follow, hmember]
    | item hnumeral hitem =>
      rw [follow, if_pos hnumeral.isDigits, hnumeral.readInteger_eq]
      simp only [Int.toNat_natCast, hitem]

/-- A segment cannot be read just if it consists of unreadable digits and the path has come to an
array. -/
theorem follow_eq_index_iff {fault : Number.IntegerFault} :
    follow path current segment = .error (.index fault) ↔
      (∃ items, current = .array items) ∧ Text.isDigits segment.toList = true ∧
        Number.IsUnreadable segment fault := by
  constructor
  · intro h
    unfold follow at h
    split at h
    · split at h <;> cases h
    · split at h
      · rename_i hdigits
        split at h
        · rename_i hread
          cases h
          exact ⟨⟨_, rfl⟩, hdigits, (Number.readInteger_eq_error_iff hdigits).mp hread⟩
        · split at h <;> cases h
      · cases h
    · cases h
  · rintro ⟨⟨items, rfl⟩, hdigits, hunreadable⟩
    rw [follow, if_pos hdigits, (Number.readInteger_eq_error_iff hdigits).mpr hunreadable]

end Segment

/-! ## Paths -/

/-- A path into a value comes to an array with a segment of digits that cannot be read. -/
inductive MeetsUnreadable : Json → List String → Number.IntegerFault → Prop
  | here {items : List Json} {segment : String} {segments : List String}
    {fault : Number.IntegerFault} :
    Text.isDigits segment.toList = true → Number.IsUnreadable segment fault →
    MeetsUnreadable (.array items) (segment :: segments) fault
  | later {current next : Json} {segment : String} {segments : List String}
    {fault : Number.IntegerFault} :
    Steps current segment next → MeetsUnreadable next segments fault →
    MeetsUnreadable current (segment :: segments) fault

/-- Following a path stops for a segment that cannot be read just if the path meets one. -/
theorem followAll_eq_index_iff {path : String} {data : Json} {segments : List String}
    {fault : Number.IntegerFault} :
    followAll path data segments = .error (.index fault) ↔ MeetsUnreadable data segments fault := by
  constructor
  · intro h
    induction segments generalizing data with
    | nil => cases h
    | cons segment segments ih =>
      rw [followAll] at h
      cases hfollow : follow path data segment with
      | error e =>
        rw [hfollow] at h
        obtain rfl : e = .index fault := Except.error.inj h
        obtain ⟨⟨items, rfl⟩, hdigits, hunreadable⟩ := follow_eq_index_iff.mp hfollow
        exact .here hdigits hunreadable
      | ok next =>
        rw [hfollow] at h
        exact .later (follow_eq_ok_iff.mp hfollow) (ih h)
  · intro h
    induction h with
    | here hdigits hunreadable =>
      rw [followAll, follow_eq_index_iff.mpr ⟨⟨_, rfl⟩, hdigits, hunreadable⟩]
    | later hstep _ ih =>
      rw [followAll, follow_eq_ok_iff.mpr hstep]
      exact ih

/-- A path that meets unreadable digits has them for a segment. -/
theorem MeetsUnreadable.exists_segment {data : Json} {segments : List String}
    {fault : Number.IntegerFault} (h : MeetsUnreadable data segments fault) :
    ∃ segment ∈ segments, Text.isDigits segment.toList = true ∧
      Number.IsUnreadable segment fault := by
  induction h with
  | here hdigits hunreadable => exact ⟨_, List.mem_cons_self, hdigits, hunreadable⟩
  | later _ _ ih =>
    obtain ⟨segment, hsegment, hfound⟩ := ih
    exact ⟨segment, List.mem_cons_of_mem _ hsegment, hfound⟩

/-! ## Pointers -/

/-- A pointer with a path comes, in the JSON that the captured text denotes, to an array with a
segment of digits that cannot be read. -/
def ComesToUnreadable (results : Results) (step output : String) (fault : Number.IntegerFault) :
    Prop :=
  ∃ outputs name path captured data, results.lookup step = some outputs ∧
    splitOutput output = (name, some path) ∧ outputs.lookup name = some captured ∧
    Json.parse .strict captured.value = .ok data ∧
    MeetsUnreadable data (Text.splitAt '.' path) fault

section Resolve

variable {results : Results} {step output : String} {fault : Number.IntegerFault}

/-- Following a pointer stops for a segment that cannot be read just if it comes to one. -/
theorem resolve_eq_index_iff :
    resolve results step output = .error (.index fault) ↔
      ComesToUnreadable results step output fault := by
  rw [resolve]
  constructor
  · intro h
    split at h
    · cases h
    · rename_i outputs hstep
      rcases hsplit : splitOutput output with ⟨name, path?⟩
      rw [hsplit] at h
      simp only at h
      split at h
      · cases h
      · rename_i captured houtput
        cases path? with
        | none => cases h
        | some path =>
          cases hparse : Json.parse .strict captured.value with
          | error e => rw [hparse] at h; cases h
          | ok data =>
            rw [hparse] at h
            exact ⟨outputs, name, path, captured, data, hstep, hsplit, houtput, hparse,
              followAll_eq_index_iff.mp h⟩
  · rintro ⟨outputs, name, path, captured, data, hstep, hsplit, houtput, hparse, hmeets⟩
    simp only [hstep, hsplit, houtput, hparse]
    exact followAll_eq_index_iff.mpr hmeets

/-- The path of a pointer is made of segments of its output part. -/
theorem mem_splitAt_of_splitOutput {name path segment : String}
    (hsplit : splitOutput output = (name, some path)) (hsegment : segment ∈ Text.splitAt '.' path) :
    segment ∈ Text.splitAt '.' output := by
  unfold splitOutput at hsplit
  split at hsplit
  · cases hsplit
  · rename_i front rest hcut
    cases hsplit
    have houtput : output =
        String.ofList front ++ String.ofList ['.'] ++ String.ofList rest := by
      rw [← String.toList_inj]
      simp [Text.eq_of_cut? hcut]
    rw [houtput, Text.splitAt_append]
    exact List.mem_append_right _ hsegment

/-- A pointer that comes to unreadable digits has them for a segment. -/
theorem ComesToUnreadable.exists_segment (h : ComesToUnreadable results step output fault) :
    ∃ segment ∈ Text.splitAt '.' output, Text.isDigits segment.toList = true ∧
      Number.IsUnreadable segment fault := by
  obtain ⟨_, _, _, _, _, _, hsplit, _, _, hmeets⟩ := h
  obtain ⟨segment, hsegment, hfound⟩ := hmeets.exists_segment
  exact ⟨segment, mem_splitAt_of_splitOutput hsplit hsegment, hfound⟩

end Resolve

/-- Asking for the value of a pointer or the reason why there is none gives the value just if the
pointer can be followed, and the reason just if it leads nowhere. The one thing that remains is a
path that comes to an array with a segment of digits which cannot be read, since one of them is no
decimal digit or there are too many; then, and only then, there is no answer. Without such a
segment in the output there always is one. -/
theorem resolveSafe_outcomes (results : Results) (step output : String) :
    (∀ j, resolveSafe results step output = .ok (.ok j) ↔
      resolve results step output = .ok j) ∧
    (∀ reason, resolveSafe results step output = .ok (.error reason) ↔
      resolve results step output = .error (.unresolved reason)) ∧
    (∀ fault, resolveSafe results step output = .error fault ↔
      ComesToUnreadable results step output fault) ∧
    ((∀ segment ∈ Text.splitAt '.' output, Text.isDigits segment.toList = true →
        ∃ n, Number.IsNumeral segment n) →
      ∃ answer, resolveSafe results step output = .ok answer) := by
  have hfault (fault : Number.IntegerFault) : resolveSafe results step output = .error fault ↔
      ComesToUnreadable results step output fault := by
    rw [← resolve_eq_index_iff, resolveSafe]
    cases resolve results step output with
    | ok j => simp
    | error e => cases e <;> simp
  refine ⟨fun j => ?_, fun reason => ?_, hfault, fun hreadable => ?_⟩
  · rw [resolveSafe]
    cases resolve results step output with
    | ok j' => simp
    | error e => cases e <;> simp
  · rw [resolveSafe]
    cases resolve results step output with
    | ok j => simp
    | error e => cases e <;> simp
  · cases hanswer : resolveSafe results step output with
    | ok answer => exact ⟨answer, rfl⟩
    | error fault =>
      -- A numeral is read, and what is read is not refused.
      obtain ⟨segment, hsegment, hdigits, hunreadable⟩ := ((hfault fault).mp hanswer).exists_segment
      obtain ⟨n, hnumeral⟩ := hreadable segment hsegment hdigits
      have hrefused := (Number.readInteger_eq_error_iff hdigits).mpr hunreadable
      cases hnumeral.readInteger_eq.symm.trans hrefused

/-- The superscript two is a digit that is no decimal one. -/
example : resolveSafe [("S", [("O", ⟨"[1]", "text"⟩)])] "S" "O.²" =
    .error (.notInteger 10 "²") := by cbv

end Runbook.Pointer
