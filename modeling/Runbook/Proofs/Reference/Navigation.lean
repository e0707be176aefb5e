import Runbook.Proofs.Json.Acceptance
import Runbook.Proofs.Reference.Unreadable

/-!
# Following dotted paths

A dotted path is followed piece by piece: a path that is put together of two leads where the second
leads from where the first does, and fails as the first of them that fails. In a value that was read
from a text, the paths made of keys and decimal indices lead to all of its parts, and no other path
of ASCII characters leads anywhere.

The module introduces:

* `Json.Leads`: the parts that a path leads to in a JSON value, told without following it;
* `Pointer.HasShortIndices`: the paths whose segments of digits are short enough to be read.

The main result is `Pointer.navigate_leads`.
-/

namespace Runbook

/-- A path leads from a JSON value to a part of it: each segment is the key of a member, which holds
no point, or the decimal index of an item, with zeros in front or without. -/
inductive Json.Leads : Json → List String → Json → Prop
  | here (j : Json) : Leads j [] j
  | member {members : List (String × Json)} {key : String} {value part : Json}
    {path : List String} :
    (key, value) ∈ members → '.' ∉ key.toList → Leads value path part →
    Leads (.object members) (key :: path) part
  | item {items : List Json} {segment : String} {index : Nat} {value part : Json}
    {path : List String} :
    Number.IsIndex segment index → items[index]? = some value → Leads value path part →
    Leads (.array items) (segment :: path) part

/-- No segment of such a path holds a point. -/
theorem Json.Leads.notMem_point {j part : Json} {path : List String} (h : j.Leads path part)
    {segment : String} (hsegment : segment ∈ path) : '.' ∉ segment.toList := by
  induction h with
  | here j => cases hsegment
  | member _ hpoint _ ih =>
    rcases List.mem_cons.mp hsegment with rfl | hlater
    · exact hpoint
    · exact ih hlater
  | item hindex _ _ ih =>
    rcases List.mem_cons.mp hsegment with rfl | hlater
    · intro hpoint
      cases hindex.digits '.' hpoint
    · exact ih hlater

namespace Pointer

/-! ## Composition -/

/-- Segments that come after others are followed from where these lead. -/
theorem followAll_append (path : String) (data : Json) (front rest : List String) :
    followAll path data (front ++ rest) =
      (followAll path data front).bind fun part => followAll path part rest := by
  induction front generalizing data with
  | nil => rfl
  | cons segment front ih =>
    rw [List.cons_append, followAll, followAll]
    cases follow path data segment with
    | error e => rfl
    | ok next => exact ih next

/-- A path after another one is followed from where that one leads. -/
theorem navigate_append (data : Json) (p q : String) {f : String} (hf : f ≠ "") :
    navigate data (p ++ "." ++ q) f =
      (navigate data p f).bind fun part => navigate part q f := by
  have hshown : f.isEmpty = false := by simpa using hf
  have hsplit : Text.splitAt '.' (p ++ "." ++ q) = Text.splitAt '.' p ++ Text.splitAt '.' q :=
    Text.splitAt_append '.' p q
  simp only [navigate, hshown, Bool.false_eq_true, if_false, hsplit, followAll_append]

/-! ## Parts -/

/-- Where a path leads in a well-formed value, there it is followed. -/
theorem followAll_of_leads {j part : Json} {path : List String} (h : j.Leads path part)
    (hj : j.WellFormed) (shown : String) : followAll shown j path = .ok part := by
  induction h with
  | here j => rfl
  | @member members key value part path hmember _ _ ih =>
    have hlookup : Json.member? key members = some value := lookup_of_mem hj.1 hmember
    rw [followAll, follow_eq_ok_iff.mpr (.member hlookup)]
    exact ih (Json.wellFormedMembers_iff.mp hj.2 _ hmember)
  | @item items segment index value part path hindex hitem _ ih =>
    rw [followAll, follow_eq_ok_iff.mpr (.item hindex.isNumeral hitem)]
    exact ih (Json.wellFormedItems_iff.mp hj _ (List.mem_of_getElem? hitem))

/-- A path of ASCII characters that is followed leads to where it is followed. -/
theorem leads_of_followAll {shown : String} {j part : Json} {path : List String}
    (hpoint : ∀ segment ∈ path, '.' ∉ segment.toList)
    (hascii : ∀ segment ∈ path, Text.IsAscii segment.toList)
    (h : followAll shown j path = .ok part) : j.Leads path part := by
  induction path generalizing j with
  | nil =>
    cases h
    exact .here _
  | cons segment path ih =>
    rw [followAll] at h
    cases hfollow : follow shown j segment with
    | error e =>
      rw [hfollow] at h
      cases h
    | ok next =>
      rw [hfollow] at h
      have hlater : next.Leads path part :=
        ih (fun s hs => hpoint s (List.mem_cons_of_mem _ hs))
          (fun s hs => hascii s (List.mem_cons_of_mem _ hs)) h
      cases follow_eq_ok_iff.mp hfollow with
      | member hmember =>
        exact .member (mem_of_lookup hmember) (hpoint segment List.mem_cons_self) hlater
      | item hnumeral hitem =>
        have hall := Text.allDigits_of_isDigits (hascii segment List.mem_cons_self)
          hnumeral.isDigits
        exact .item ((Number.isNumeral_iff_of_allDigits hall).mp hnumeral) hitem hlater

/-- The segments of a path that consist of ASCII digits have not more of them than are read. -/
def HasShortIndices (p : String) : Prop :=
  ∀ segment ∈ Text.splitAt '.' p, Json.AllDigits segment.toList → segment.length ≤ Number.maxDigits

/-- A path of ASCII characters with short indices is followed, or leads nowhere. -/
theorem navigate_ok_or_unresolved {p : String} (hascii : Text.IsAscii p.toList)
    (hshort : HasShortIndices p) (data : Json) (f : String) :
    (∃ part, navigate data p f = .ok part) ∨
      ∃ reason, navigate data p f = .error (.unresolved reason) := by
  cases hnavigate : navigate data p f with
  | ok part => exact .inl ⟨part, rfl⟩
  | error e =>
    cases e with
    | unresolved reason => exact .inr ⟨reason, rfl⟩
    | index fault =>
      -- Digits that cannot be read would be ASCII digits, and too many.
      obtain ⟨segment, hsegment, hdigits, hunreadable⟩ :=
        (followAll_eq_index_iff.mp hnavigate).exists_segment
      have hall := Text.allDigits_of_isDigits
        (fun c hc => hascii c (Text.mem_of_mem_splitAt hsegment hc)) hdigits
      have hlong := ((Number.isUnreadable_iff_of_allDigits hall).mp hunreadable).1
      exact absurd (hshort segment hsegment hall) (Nat.not_le.mpr hlong)

/-- Dotted paths are followed exactly. With a text for the messages, a path of two leads to a value
just if the first leads to one from which the second leads there, and has the error of the first of
them that has one. In a value that was read, the paths of keys without points and of indices are
followed to the parts that they lead to, and every other path of ASCII characters leads nowhere, as
long as its indices are short enough to be read. -/
theorem navigate_leads (d : Json) :
    (∀ p q f, f ≠ "" →
      (∀ w, navigate d (p ++ "." ++ q) f = .ok w ↔
        ∃ u, navigate d p f = .ok u ∧ navigate u q f = .ok w) ∧
      ∀ e, navigate d (p ++ "." ++ q) f = .error e ↔
        navigate d p f = .error e ∨ ∃ u, navigate d p f = .ok u ∧ navigate u q f = .error e) ∧
    ∀ text, Json.parse .strict text = .ok d →
      (∀ path w f, path ≠ [] → d.Leads path w → navigate d (Text.join "." path) f = .ok w) ∧
      ∀ p f, Text.IsAscii p.toList → HasShortIndices p →
        (∀ path w, path ≠ [] → d.Leads path w → p ≠ Text.join "." path) →
        ∃ reason, navigate d p f = .error (.unresolved reason) := by
  refine ⟨fun p q f hf => ?_, fun text hread => ⟨fun path w f hsome hleads => ?_,
    fun p f hascii hshort hother => ?_⟩⟩
  · rw [navigate_append d p q hf]
    cases navigate d p f with
    | error e => simp [Except.bind]
    | ok u => simp [Except.bind]
  · have hsplit : Text.splitAt '.' (Text.join "." path) = path :=
      Text.splitAt_join hsome fun segment hsegment => hleads.notMem_point hsegment
    rw [navigate, hsplit]
    exact followAll_of_leads hleads (Json.wellFormed_of_parse hread) _
  · refine (navigate_ok_or_unresolved hascii hshort d f).resolve_left ?_
    rintro ⟨w, hfound⟩
    have hleads : d.Leads (Text.splitAt '.' p) w :=
      leads_of_followAll (fun segment hsegment => Text.notMem_of_mem_splitAt hsegment)
        (fun segment hsegment c hc => hascii c (Text.mem_of_mem_splitAt hsegment hc)) hfound
    have hsome : Text.splitAt '.' p ≠ [] := by simp [Text.splitAt]
    exact hother _ w hsome hleads (Text.join_splitAt '.' p).symm

/-- An array below a key. -/
def shelf : Json :=
  .object [("A", .array [.null, .object [("b", .bool true)]])]

/-- There is no third item. -/
theorem not_leads_shelf {path : List String} {part : Json} (hsome : path ≠ [])
    (h : shelf.Leads path part) : "A.2" ≠ Text.join "." path := by
  intro heq
  have hpath : path = ["A", "2"] := by
    rw [← Text.splitAt_join hsome fun segment hsegment => h.notMem_point hsegment, ← heq]
    decide
  subst hpath
  cases h with
  | member hmember _ hlater =>
    cases List.mem_singleton.mp hmember
    cases hlater with
    | item hindex hitem _ =>
      obtain rfl := hindex.denotes
      cases hitem

/-- A path of three segments leads to a part and is followed there, from the array below the key as
well, and a path to an item that is not there is not followed. -/
theorem navigate_leads_shelf :
    navigate shelf "A.01.b" "path" = .ok (.bool true) ∧
    Json.parse .strict "\x7b\"A\":[null,\x7b\"b\":true\x7d]\x7d" = .ok shelf ∧
    shelf.Leads ["A", "01", "b"] (.bool true) ∧
    (∃ u, navigate shelf "A" "path" = .ok u ∧ navigate u "01.b" "path" = .ok (.bool true)) ∧
    ∃ reason, navigate shelf "A.2" "path" = .error (.unresolved reason) := by
  have hread : Json.parse .strict "\x7b\"A\":[null,\x7b\"b\":true\x7d]\x7d" = .ok shelf := by
    have htext : shelf.render none = "\x7b\"A\":[null,\x7b\"b\":true\x7d]\x7d" := by decide +kernel
    rw [← htext]
    exact Json.parse_render (by simp [shelf, Json.WellFormed, Json.WellFormedItems,
      Json.WellFormedMembers]) none
  have hindex : Number.IsIndex "01" 1 :=
    ⟨by decide, List.all_eq_true.mp (by decide), by decide, by decide⟩
  have hleads : shelf.Leads ["A", "01", "b"] (.bool true) :=
    .member List.mem_cons_self (by decide) (.item hindex rfl
      (.member List.mem_cons_self (by decide) (.here _)))
  obtain ⟨hcompose, hparts⟩ := navigate_leads shelf
  obtain ⟨hpart, helse⟩ := hparts _ hread
  have hfound : navigate shelf "A.01.b" "path" = .ok (.bool true) :=
    hpart ["A", "01", "b"] _ "path" (by decide) hleads
  refine ⟨hfound, hread, hleads, ((hcompose "A" "01.b" "path" (by decide)).1 _).mp hfound, ?_⟩
  have hshort : ∀ segment ∈ Text.splitAt '.' "A.2", segment.length ≤ Number.maxDigits := by
    decide +kernel
  have hascii : Text.IsAscii "A.2".toList := by simp [Text.IsAscii]
  exact helse "A.2" "path" hascii (fun segment hsegment _ => hshort segment hsegment)
    fun path part hsome hpath => not_leads_shelf hsome hpath

end Pointer

end Runbook
