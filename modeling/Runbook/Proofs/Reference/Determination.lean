import Mathlib.Data.List.Forall2
import Runbook.Proofs.Reference.Agreement

/-!
# Substitution is determined by the placeholders that are listed

What replacing the placeholders of a value gives depends on the results only through the values of
the placeholders that the scanner lists: it fails as the first of them that cannot be followed, two
collections of results with the same values for them give the same, and a value without placeholders
is left as it is.

The module introduces:

* `Value.unmarked`: a value in which a number that was read is the text of its characters;
* `Reference.Resolves`, `Reference.Agrees`: a placeholder can be followed under some results, and
  two collections of results have the same for it.

The main result is `Substitution.determined_by_references`; `Substitution.forall₂_of_inEntries` says
what becomes of the entries of a map.
-/

namespace Runbook

namespace Value

mutual

/-- A value whose numbers that were read are texts of the same characters. The two serve as the same
text, so that the value is the same but for that mark. -/
def unmarked : Value → Value
  | .number literal => .text literal
  | .list items => .list (unmarkedItems items)
  | .map entries => .map (unmarkedEntries entries)
  | v => v

/-- Items of which the numbers that were read are texts. -/
def unmarkedItems : List Value → List Value
  | [] => []
  | item :: items => unmarked item :: unmarkedItems items

/-- Entries of whose values the numbers that were read are texts. -/
def unmarkedEntries : List (Value × Value) → List (Value × Value)
  | [] => []
  | (key, value) :: entries => (key, unmarked value) :: unmarkedEntries entries

end

mutual

/-- Whether a value has a number that was read among its parts. -/
def holdsNumber : Value → Bool
  | .number _ => true
  | .list items => anyHoldsNumber items
  | .map entries => anyValueHoldsNumber entries
  | _ => false

/-- Whether one of the items has such a part. -/
def anyHoldsNumber : List Value → Bool
  | [] => false
  | item :: items => holdsNumber item || anyHoldsNumber items

/-- Whether the value of one of the entries has such a part. -/
def anyValueHoldsNumber : List (Value × Value) → Bool
  | [] => false
  | (_, value) :: entries => holdsNumber value || anyValueHoldsNumber entries

end

/-- A value that serves as a text is the same text. -/
theorem unmarked_eq_text {value : Value} {s : String} (h : value.text? = some s) :
    value.unmarked = .text s := by
  cases value with
  | text s' => exact congrArg Value.text (Option.some.inj h)
  | number literal => exact congrArg Value.text (Option.some.inj h)
  | _ => cases h

mutual

/-- A value without such numbers stays the same value. -/
theorem unmarked_of_not_holdsNumber (v : Value) (h : v.holdsNumber = false) : v.unmarked = v := by
  cases v with
  | number literal => cases h
  | list items => rw [unmarked, unmarkedItems_of_not_holdsNumber items h]
  | map entries => rw [unmarked, unmarkedEntries_of_not_holdsNumber entries h]
  | _ => rfl

theorem unmarkedItems_of_not_holdsNumber (items : List Value) (h : anyHoldsNumber items = false) :
    unmarkedItems items = items := by
  cases items with
  | nil => rfl
  | cons item items =>
    rw [anyHoldsNumber, Bool.or_eq_false_iff] at h
    rw [unmarkedItems, unmarked_of_not_holdsNumber item h.1,
      unmarkedItems_of_not_holdsNumber items h.2]

theorem unmarkedEntries_of_not_holdsNumber (entries : List (Value × Value))
    (h : anyValueHoldsNumber entries = false) : unmarkedEntries entries = entries := by
  cases entries with
  | nil => rfl
  | cons entry entries =>
    obtain ⟨key, value⟩ := entry
    rw [anyValueHoldsNumber, Bool.or_eq_false_iff] at h
    rw [unmarkedEntries, unmarked_of_not_holdsNumber value h.1,
      unmarkedEntries_of_not_holdsNumber entries h.2]

end

end Value

namespace Reference

/-- Two collections of results agree on a placeholder that has the same value, or the same error,
under both. -/
def Agrees (first second : Results) (r : Reference) : Prop :=
  Pointer.resolve first r.step r.output = Pointer.resolve second r.step r.output

/-- A placeholder that can be followed. -/
def Resolves (results : Results) (r : Reference) : Prop :=
  ∃ j, Pointer.resolve results r.step r.output = .ok j

theorem fault_eq_none_iff {results : Results} {r : Reference} :
    fault results r = none ↔ r.Resolves results := by
  rw [fault, Resolves]
  cases Pointer.resolve results r.step r.output with
  | error e => simp [fault?]
  | ok j => simp [fault?]

/-! ## Texts without placeholders -/

/-- A text in which no placeholder is found consists of its characters. -/
theorem piecesFrom_eq_map_char {cs : List Char}
    (h : (piecesFrom 0 cs).filterMap Piece.reference? = []) :
    piecesFrom 0 cs = cs.map Piece.char := by
  induction cs with
  | nil => rfl
  | cons c cs ih =>
    rw [piecesFrom] at h ⊢
    split at h
    · cases h
    · rename_i hnone
      rw [ih h]
      rfl

end Reference

namespace Pointer

/-- A pointer reads nothing but the outputs of the step that it names. -/
theorem resolve_congr {first second : Results} {step : String}
    (h : first.lookup step = second.lookup step) (output : String) :
    resolve first step output = resolve second step output := by
  rw [resolve, resolve, h]

/-- A pointer that can be followed names a step with results. -/
theorem exists_lookup_of_resolve {results : Results} {step output : String} {j : Json}
    (h : resolve results step output = .ok j) : ∃ outputs, results.lookup step = some outputs := by
  cases hlookup : results.lookup step with
  | none =>
    rw [resolve_of_lookup_eq_none output hlookup] at h
    cases h
  | some outputs => exact ⟨outputs, rfl⟩

end Pointer

namespace Substitution

open Reference

/-! ## Results that agree -/

section Agreement

variable {first second : Results}

theorem ofPieces_congr {pieces : List Piece}
    (h : ∀ r ∈ pieces.filterMap Piece.reference?, r.Agrees first second) :
    ofPieces first pieces = ofPieces second pieces := by
  induction pieces with
  | nil => rfl
  | cons piece pieces ih =>
    cases piece with
    | char c =>
      rw [ofPieces, ofPieces, ih h]
      rfl
    | placeholder r =>
      have hr : r.Agrees first second := h r List.mem_cons_self
      have hrest := ih fun other hother => h other (List.mem_cons_of_mem r hother)
      rw [ofPieces, ofPieces, ofPiece, ofPiece, hr, hrest]

theorem inText_congr {s : String} (h : ∀ r ∈ ofText s, r.Agrees first second) :
    inText first s = inText second s := by
  rw [inText, inText, ofPieces_congr h]

mutual

/-- Results that agree on the placeholders of a value give the same for it. -/
theorem inValue_congr (v : Value) (h : ∀ r ∈ ofValue v, r.Agrees first second) :
    inValue first v = inValue second v := by
  cases v with
  | text s => rw [inValue, inValue, inText_congr h]
  | number literal => rw [inValue, inValue, inText_congr h]
  | list items => rw [inValue, inValue, inItems_congr items h]
  | map entries => rw [inValue, inValue, inEntries_congr entries h]
  | _ => rfl

theorem inItems_congr (items : List Value) (h : ∀ r ∈ ofItems items, r.Agrees first second) :
    inItems first items = inItems second items := by
  cases items with
  | nil => rfl
  | cons item items =>
    have hitem := inValue_congr item fun r hr => h r (List.mem_append_left _ hr)
    have hitems := inItems_congr items fun r hr => h r (List.mem_append_right _ hr)
    rw [inItems, inItems, hitem, hitems]

theorem inEntries_congr (entries : List (Value × Value))
    (h : ∀ r ∈ ofEntries entries, r.Agrees first second) :
    inEntries first entries = inEntries second entries := by
  cases entries with
  | nil => rfl
  | cons entry entries =>
    obtain ⟨key, value⟩ := entry
    have hvalue := inValue_congr value fun r hr => h r (List.mem_append_left _ hr)
    have hentries := inEntries_congr entries fun r hr => h r (List.mem_append_right _ hr)
    rw [inEntries, inEntries, hvalue, hentries]

end

end Agreement

/-! ## Values without placeholders -/

section Closed

variable (results : Results)

theorem ofPieces_map_char (cs : List Char) : ofPieces results (cs.map Piece.char) = .ok cs := by
  induction cs with
  | nil => rfl
  | cons c cs ih =>
    rw [List.map_cons, ofPieces, ih]
    rfl

/-- A text without placeholders is left as it is. -/
theorem inText_of_closed {s : String} (h : ofText s = []) : inText results s = .ok s := by
  rw [inText, pieces, piecesFrom_eq_map_char h, ofPieces_map_char]
  exact congrArg Except.ok (String.ofList_toList)

mutual

/-- A value without placeholders is left as it is. -/
theorem inValue_of_closed (v : Value) (h : ofValue v = []) :
    inValue results v = .ok v.unmarked := by
  cases v with
  | text s =>
    rw [inValue, inText_of_closed results h]
    rfl
  | number literal =>
    rw [inValue, inText_of_closed results h]
    rfl
  | list items =>
    rw [inValue, inItems_of_closed items h]
    rfl
  | map entries =>
    rw [inValue, inEntries_of_closed entries h]
    rfl
  | _ => rfl

theorem inItems_of_closed (items : List Value) (h : ofItems items = []) :
    inItems results items = .ok (Value.unmarkedItems items) := by
  cases items with
  | nil => rfl
  | cons item items =>
    obtain ⟨hitem, hitems⟩ := List.append_eq_nil_iff.mp h
    rw [inItems, inValue_of_closed item hitem, inItems_of_closed items hitems]
    rfl

theorem inEntries_of_closed (entries : List (Value × Value)) (h : ofEntries entries = []) :
    inEntries results entries = .ok (Value.unmarkedEntries entries) := by
  cases entries with
  | nil => rfl
  | cons entry entries =>
    obtain ⟨key, value⟩ := entry
    obtain ⟨hvalue, hentries⟩ := List.append_eq_nil_iff.mp h
    rw [inEntries, inValue_of_closed value hvalue, inEntries_of_closed entries hentries]
    rfl

end

end Closed

/-! ## Success and failure -/

section Outcome

variable {results : Results} {v : Value}

theorem exists_ok_iff {ε α : Type} {x : Except ε α} : (∃ a, x = .ok a) ↔ fault? x = none := by
  cases x <;> simp [fault?]

/-- Replacing the placeholders of a value succeeds just if all of them can be followed. -/
theorem inValue_ok_iff :
    (∃ w, inValue results v = .ok w) ↔ ∀ r ∈ ofValue v, r.Resolves results := by
  rw [exists_ok_iff, fault_inValue, firstFault, List.findSome?_eq_none_iff]
  simp only [fault_eq_none_iff]

/-- Replacing the placeholders of a value fails just as the first that cannot be followed. -/
theorem inValue_error_iff {e : Pointer.Error} :
    inValue results v = .error e ↔
      ∃ before r after, ofValue v = before ++ r :: after ∧
        (∀ p ∈ before, p.Resolves results) ∧
        Pointer.resolve results r.step r.output = .error e := by
  rw [← fault_eq_some_iff, fault_inValue, firstFault, List.findSome?_eq_some_iff]
  constructor
  · rintro ⟨before, r, after, hsplit, hr, hbefore⟩
    exact ⟨before, r, after, hsplit, fun p hp => fault_eq_none_iff.mp (hbefore p hp),
      fault_eq_some_iff.mp hr⟩
  · rintro ⟨before, r, after, hsplit, hbefore, hr⟩
    exact ⟨before, r, after, hsplit, fault_eq_some_iff.mpr hr,
      fun p hp => fault_eq_none_iff.mpr (hbefore p hp)⟩

/-- A replacement that succeeded gives the same when the results of further steps are added. -/
theorem inValue_of_further {larger : Results}
    (hlarger : ∀ step outputs, results.lookup step = some outputs →
      larger.lookup step = some outputs) {w : Value} (h : inValue results v = .ok w) :
    inValue larger v = .ok w := by
  -- A placeholder that can be followed names a step whose results are kept.
  have hagrees : ∀ r ∈ ofValue v, r.Agrees larger results := by
    intro r hr
    obtain ⟨j, hj⟩ := inValue_ok_iff.mp ⟨w, h⟩ r hr
    obtain ⟨outputs, hlookup⟩ := Pointer.exists_lookup_of_resolve hj
    exact Pointer.resolve_congr ((hlarger _ _ hlookup).trans hlookup.symm) r.output
  rw [inValue_congr v hagrees, h]

end Outcome

/-! ## Entries -/

section Entries

variable {results : Results} {entries resolved : List (Value × Value)}

/-- Entries keep their keys and their order, and the placeholders in their values are replaced. -/
theorem forall₂_of_inEntries (h : inEntries results entries = .ok resolved) :
    List.Forall₂ (fun given put => given.1 = put.1 ∧ inValue results given.2 = .ok put.2)
      entries resolved := by
  induction entries generalizing resolved with
  | nil =>
    cases h
    exact .nil
  | cons entry rest ih =>
    obtain ⟨key, value⟩ := entry
    rw [inEntries] at h
    cases hfirst : inValue results value with
    | error e => rw [hfirst] at h; cases h
    | ok first =>
      cases hrest : inEntries results rest with
      | error e => rw [hfirst, hrest] at h; cases h
      | ok others =>
        rw [hfirst, hrest] at h
        cases h
        exact .cons ⟨rfl, hfirst⟩ (ih hrest)

/-- Replacing placeholders keeps the keys. -/
theorem map_fst_inEntries (h : inEntries results entries = .ok resolved) :
    resolved.map Prod.fst = entries.map Prod.fst := by
  have hentries := forall₂_of_inEntries h
  clear h
  induction hentries with
  | nil => rfl
  | cons hentry _ ih => rw [List.map_cons, List.map_cons, hentry.1, ih]

/-- No value is left as a number that was read. -/
theorem inValue_ne_number (given : Value) (literal : String) :
    inValue results given ≠ .ok (.number literal) := by
  intro h
  cases given with
  | text t => cases ht : inText results t <;> rw [inValue, ht] at h <;> cases h
  | number t => cases ht : inText results t <;> rw [inValue, ht] at h <;> cases h
  | list items => cases hitems : inItems results items <;> rw [inValue, hitems] at h <;> cases h
  | map entries =>
    cases hentries : inEntries results entries <;> rw [inValue, hentries] at h <;> cases h
  | _ => cases h

/-- What serves as a text once the placeholders are replaced is a text. -/
theorem eq_text_of_inValue {given value : Value} {s : String}
    (h : inValue results given = .ok value) (hs : value.text? = some s) : value = .text s := by
  cases value with
  | text t => exact congrArg Value.text (Option.some.inj hs)
  | number literal => exact absurd h (inValue_ne_number given literal)
  | _ => cases hs

/-- The value of an entry that serves as a text once the placeholders are replaced is a text. -/
theorem eq_text_of_mem_inEntries (h : inEntries results entries = .ok resolved)
    {entry : Value × Value} (hentry : entry ∈ resolved) {s : String}
    (hs : entry.2.text? = some s) : entry.2 = .text s := by
  have hentries := forall₂_of_inEntries h
  clear h
  induction hentries with
  | nil => cases hentry
  | cons hfirst _ ih =>
    rcases List.mem_cons.mp hentry with rfl | hlater
    · exact eq_text_of_inValue hfirst.2 hs
    · exact ih hlater

end Entries

/-- Replacing placeholders is determined by the placeholders that are listed in the value. It
succeeds just if each of them can be followed, and otherwise fails with the error of the first that
cannot; results that agree on all of them give the same, so that the results of further steps change
nothing once it succeeds; and a value without placeholders is left as it is, only that a number that
was read becomes the text of its characters. -/
theorem determined_by_references (v : Value) :
    (∀ results, (∃ w, inValue results v = .ok w) ↔ ∀ r ∈ ofValue v, r.Resolves results) ∧
      (∀ results e, inValue results v = .error e ↔
        ∃ before r after, ofValue v = before ++ r :: after ∧
          (∀ p ∈ before, p.Resolves results) ∧
          Pointer.resolve results r.step r.output = .error e) ∧
      (∀ first second, (∀ r ∈ ofValue v, r.Agrees first second) →
        inValue first v = inValue second v) ∧
      (∀ results larger w,
        (∀ step outputs, results.lookup step = some outputs →
          larger.lookup step = some outputs) →
        inValue results v = .ok w → inValue larger v = .ok w) ∧
      (ofValue v = [] → (∀ results, inValue results v = .ok v.unmarked) ∧
        (v.holdsNumber = false → v.unmarked = v)) := by
  refine ⟨fun results => inValue_ok_iff, fun results e => inValue_error_iff, ?_, ?_, ?_⟩
  · intro first second hagrees
    exact inValue_congr v hagrees
  · intro results larger w hlarger h
    exact inValue_of_further hlarger h
  · intro hclosed
    exact ⟨fun results => inValue_of_closed results v hclosed, v.unmarked_of_not_holdsNumber⟩

end Substitution

end Runbook
