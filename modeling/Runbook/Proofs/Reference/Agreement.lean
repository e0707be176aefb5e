import Runbook.Reference.Substitution

/-!
# The scanner and the substitution agree

The placeholders that are listed in a value are the ones that replacing placeholders follows, in the
same order: replacing them fails just if one of those listed cannot be followed, with the error of
the first such one.

The main results are `Substitution.fault_inText`, `Substitution.fault_inEntries`, and
`Pointer.lookup_of_missingStep`, which says when a step is reported to have captured nothing.
-/

namespace Runbook

/-- The error of a computation that failed. -/
def fault? {ε α : Type} : Except ε α → Option ε
  | .error e => some e
  | .ok _ => none

section Fault

variable {ε α β : Type}

@[simp]
theorem fault_map (f : α → β) (x : Except ε α) : fault? (x.map f) = fault? x := by
  cases x <;> rfl

/-- Of two computations whose results are put together the first one that fails decides. -/
theorem fault_both (x : Except ε α) (y : Except ε β) {γ : Type} (f : α → β → γ) :
    fault? (do let a ← x; let b ← y; return f a b) = (fault? x).or (fault? y) := by
  cases x with
  | error e => rfl
  | ok a => cases y <;> rfl

theorem fault_eq_some_iff {x : Except ε α} {e : ε} : fault? x = some e ↔ x = .error e := by
  cases x <;> simp [fault?]

end Fault

namespace Reference

/-- Why a placeholder cannot be followed, if it cannot. -/
def fault (results : Results) (r : Reference) : Option Pointer.Error :=
  fault? (Pointer.resolve results r.step r.output)

/-- Why the first of some placeholders that cannot be followed cannot. -/
def firstFault (results : Results) (references : List Reference) : Option Pointer.Error :=
  references.findSome? (fault results)

theorem firstFault_cons (results : Results) (r : Reference) (references : List Reference) :
    firstFault results (r :: references) =
      (fault results r).or (firstFault results references) := by
  rw [firstFault, List.findSome?_cons, firstFault]
  cases fault results r <;> rfl

theorem firstFault_append (results : Results) (first second : List Reference) :
    firstFault results (first ++ second) =
      (firstFault results first).or (firstFault results second) :=
  List.findSome?_append

end Reference

namespace Substitution

open Reference

variable (results : Results)

/-- Replacing the placeholders among pieces fails for the first that cannot be followed. -/
theorem fault_ofPieces (pieces : List Piece) :
    fault? (ofPieces results pieces) =
      firstFault results (pieces.filterMap Piece.reference?) := by
  induction pieces with
  | nil => rfl
  | cons piece pieces ih =>
    rw [ofPieces, fault_both, ih]
    cases piece with
    | char c => rfl
    | placeholder r =>
      have hfirst : fault? (ofPiece results (.placeholder r)) = Reference.fault results r := by
        rw [ofPiece, fault_map, Reference.fault]
      rw [hfirst]
      exact (firstFault_cons results r _).symm

/-- Replacing the placeholders of a text fails for the first that cannot be followed. -/
theorem fault_inText (s : String) :
    fault? (inText results s) = firstFault results (ofText s) := by
  rw [inText, fault_map, fault_ofPieces]
  rfl

mutual

/-- Replacing the placeholders of a value fails for the first that cannot be followed. -/
theorem fault_inValue (v : Value) :
    fault? (inValue results v) = firstFault results (ofValue v) := by
  cases v with
  | text s => simp only [inValue, ofValue, fault_map, fault_inText]
  | number literal => simp only [inValue, ofValue, fault_map, fault_inText]
  | list items => simp only [inValue, ofValue, fault_map, fault_inItems items]
  | map entries => simp only [inValue, ofValue, fault_map, fault_inEntries entries]
  | _ => rfl

theorem fault_inItems (items : List Value) :
    fault? (inItems results items) = firstFault results (ofItems items) := by
  cases items with
  | nil => rfl
  | cons item items =>
    rw [inItems, ofItems, fault_both, firstFault_append, fault_inValue item, fault_inItems items]

/-- Replacing the placeholders of parameters fails for the first that cannot be followed. -/
theorem fault_inEntries (entries : List (Value × Value)) :
    fault? (inEntries results entries) = firstFault results (ofEntries entries) := by
  cases entries with
  | nil => rfl
  | cons entry entries =>
    obtain ⟨key, value⟩ := entry
    rw [inEntries, ofEntries, fault_both, firstFault_append, fault_inValue value,
      fault_inEntries entries]

end

end Substitution

namespace Pointer

/-- Following a path never ends with a step that has captured nothing. -/
theorem navigate_ne_missingStep (data : Json) (path fullPath step : String) :
    navigate data path fullPath ≠ .error (.unresolved (.missingStep step)) := by
  unfold navigate
  generalize (if fullPath.isEmpty then path else fullPath) = shown
  generalize Text.splitAt '.' path = segments
  induction segments generalizing data with
  | nil => simp [followAll]
  | cons segment segments ih =>
    rw [followAll]
    cases hfollow : follow shown data segment with
    | ok next => exact ih next
    | error e =>
      intro h
      cases h
      unfold follow at hfollow
      split at hfollow
      · split at hfollow <;> cases hfollow
      · split at hfollow
        · split at hfollow
          · cases hfollow
          · split at hfollow <;> cases hfollow
        · cases hfollow
      · cases hfollow

/-- A step is reported to have captured nothing just if there are no results of it. -/
theorem lookup_of_missingStep {results : Results} {step output name : String}
    (h : resolve results step output = .error (.unresolved (.missingStep name))) :
    name = step ∧ results.lookup step = none := by
  unfold resolve at h
  cases hlookup : results.lookup step with
  | none =>
    rw [hlookup] at h
    cases h
    exact ⟨rfl, rfl⟩
  | some outputs =>
    rw [hlookup] at h
    simp only at h
    split at h
    · cases h
    · split at h
      · cases h
      · split at h
        · cases h
        · exact absurd h (navigate_ne_missingStep _ _ _ _)

/-- A placeholder that names a step without results cannot be followed. -/
theorem resolve_of_lookup_eq_none {results : Results} {step : String} (output : String)
    (h : results.lookup step = none) :
    resolve results step output = .error (.unresolved (.missingStep step)) := by
  rw [resolve, h]

end Pointer

end Runbook
