import Runbook.Loop.Item
import Runbook.Proofs.Path.ShortName
import Runbook.Proofs.Reference.Determination
import Runbook.Proofs.Reference.Within
import Runbook.Proofs.Text.Replacement

/-!
# What an item is put into

An item takes the place of its token in every text of the parameters, however deep, and its short
name does in the file that output goes to; nothing else changes. Placeholders are replaced before,
though, and a token with a point in it may be a placeholder or hold one. Then nothing is filled in
unless the placeholder can be followed, and what it points to stands where the item should.

The module introduces:

* `Loop.Filled`, `Loop.Fills`: a value and an entry of the parameters with the item put in.

The main result is `Loop.applyItem_fills`.
-/

namespace Runbook.Loop

/-! ## Filled values -/

/-- A value in whose texts, however deep, a token is replaced. A number that was read is a text of
its characters, and all other values and the keys of maps stay as they are. -/
inductive Filled (token new : String) : Value → Value → Prop
  | text {s t : String} :
      Text.Replaced token.toList new.toList s.toList t.toList →
      Filled token new (.text s) (.text t)
  | number {literal t : String} :
      Text.Replaced token.toList new.toList literal.toList t.toList →
      Filled token new (.number literal) (.text t)
  | list {items filled : List Value} :
      List.Forall₂ (Filled token new) items filled → Filled token new (.list items) (.list filled)
  | map {entries filled : List (Value × Value)} :
      entries.map Prod.fst = filled.map Prod.fst →
      List.Forall₂ (Filled token new) (entries.map Prod.snd) (filled.map Prod.snd) →
      Filled token new (.map entries) (.map filled)
  | other {v : Value} :
      v.text? = none → (∀ items, v ≠ .list items) → (∀ entries, v ≠ .map entries) →
      Filled token new v v

/-- An entry of the parameters with an item put in: the short name of the item if it is a text that
names the file which output goes to, and the item itself otherwise. -/
inductive Fills (l : Loop) (item : String) : Value × Value → Value × Value → Prop
  | outputPath {key value : Value} {s t name : String} :
      key.text? = some outputPathParameter → value.text? = some s →
      ShortName.IsShortName item name →
      Text.Replaced l.itemToken.toList name.toList s.toList t.toList →
      Fills l item (key, value) (key, .text t)
  | item {key value filled : Value} :
      (key.text? = some outputPathParameter → value.text? = none) →
      Filled l.itemToken item value filled → Fills l item (key, value) (key, filled)

section Filled

variable {token new : String}

theorem putInText_eq_iff (htoken : token.toList ≠ []) {s t : String} :
    putInText token new s = t ↔ Text.Replaced token.toList new.toList s.toList t.toList := by
  rw [← Text.replaceAll_eq_iff htoken, putInText, ← String.toList_inj, String.toList_ofList]

mutual

/-- Putting an item into a value fills it, and does nothing else. -/
theorem putInValue_eq_iff (htoken : token.toList ≠ []) (v : Value) {w : Value} :
    putInValue token new v.unmarked = w ↔ Filled token new v w := by
  cases v with
  | text s =>
    constructor
    · rintro rfl
      exact .text ((putInText_eq_iff htoken).mp rfl)
    · rintro (hreplaced | - | - | - | hnone)
      · exact congrArg Value.text ((putInText_eq_iff htoken).mpr hreplaced)
      · cases hnone
  | number literal =>
    constructor
    · rintro rfl
      exact .number ((putInText_eq_iff htoken).mp rfl)
    · rintro (- | hreplaced | - | - | hnone)
      · exact congrArg Value.text ((putInText_eq_iff htoken).mpr hreplaced)
      · cases hnone
  | list items =>
    constructor
    · rintro rfl
      exact .list ((putInItems_eq_iff htoken items).mp rfl)
    · rintro (- | - | hitems | - | ⟨-, hlist, -⟩)
      · exact congrArg Value.list ((putInItems_eq_iff htoken items).mpr hitems)
      · exact absurd rfl (hlist items)
  | map entries =>
    constructor
    · rintro rfl
      obtain ⟨hkeys, hvalues⟩ := (putInEntries_eq_iff htoken entries).mp rfl
      exact .map hkeys hvalues
    · rintro (- | - | - | ⟨hkeys, hvalues⟩ | ⟨-, -, hmap⟩)
      · exact congrArg Value.map ((putInEntries_eq_iff htoken entries).mpr ⟨hkeys, hvalues⟩)
      · exact absurd rfl (hmap entries)
  | _ =>
    constructor
    · rintro rfl
      exact .other rfl (by simp) (by simp)
    · rintro ⟨⟩
      rfl

theorem putInItems_eq_iff (htoken : token.toList ≠ []) (items : List Value) {filled : List Value} :
    putInItems token new (Value.unmarkedItems items) = filled ↔
      List.Forall₂ (Filled token new) items filled := by
  cases items with
  | nil => rw [List.forall₂_nil_left_iff, eq_comm]; rfl
  | cons item items =>
    rw [List.forall₂_cons_left_iff, Value.unmarkedItems, putInItems]
    constructor
    · rintro rfl
      exact ⟨_, _, (putInValue_eq_iff htoken item).mp rfl, (putInItems_eq_iff htoken items).mp rfl,
        rfl⟩
    · rintro ⟨first, rest, hfirst, hrest, rfl⟩
      rw [(putInValue_eq_iff htoken item).mpr hfirst, (putInItems_eq_iff htoken items).mpr hrest]

theorem putInEntries_eq_iff (htoken : token.toList ≠ []) (entries : List (Value × Value))
    {filled : List (Value × Value)} :
    putInEntries token new (Value.unmarkedEntries entries) = filled ↔
      entries.map Prod.fst = filled.map Prod.fst ∧
        List.Forall₂ (Filled token new) (entries.map Prod.snd) (filled.map Prod.snd) := by
  cases entries with
  | nil =>
    constructor
    · rintro rfl
      exact ⟨rfl, .nil⟩
    · rintro ⟨hkeys, -⟩
      exact (List.map_eq_nil_iff.mp hkeys.symm).symm
  | cons entry entries =>
    obtain ⟨key, value⟩ := entry
    rw [Value.unmarkedEntries, putInEntries]
    constructor
    · rintro rfl
      obtain ⟨hkeys, hvalues⟩ := (putInEntries_eq_iff htoken entries).mp rfl
      exact ⟨congrArg (key :: ·) hkeys, .cons ((putInValue_eq_iff htoken value).mp rfl) hvalues⟩
    · rintro ⟨hkeys, hvalues⟩
      cases filled with
      | nil => cases hkeys
      | cons first rest =>
        obtain ⟨hkey, hkeys⟩ := List.cons.inj hkeys
        obtain ⟨hvalue, hvalues⟩ := List.forall₂_cons.mp hvalues
        rw [(putInValue_eq_iff htoken value).mpr hvalue,
          (putInEntries_eq_iff htoken entries).mpr ⟨hkeys, hvalues⟩]
        exact congrArg (fun k => (k, first.2) :: rest) hkey

end

end Filled

section Fills

variable (l : Loop) (item : String)

theorem itemToken_toList_ne_nil : l.itemToken.toList ≠ [] := by
  simp [itemToken]

/-- A token whose item has a name without a point holds no placeholder. -/
theorem ofText_itemToken_of_point_notMem (h : '.' ∉ l.itemName.toList) :
    Reference.ofText l.itemToken = [] := by
  refine Reference.ofText_of_point_notMem ?_
  simpa [itemToken] using h

/-- In the file that output goes to, the token stands for the short name. -/
theorem substitute_outputPath {key : Value} (hkey : key.text? = some outputPathParameter)
    (s : String) : substitute key (.text s) item = ShortName.of item := by
  rw [substitute, hkey, if_pos (beq_self_eq_true _)]

/-- Everywhere else, the token stands for the item. -/
theorem substitute_of_not_outputPath {key value : Value}
    (h : key.text? = some outputPathParameter → value.text? = none) :
    substitute key value.unmarked item = item := by
  cases htext : value.text? with
  | none =>
    cases value with
    | text s => cases htext
    | number literal => cases htext
    | _ => rfl
  | some s =>
    have hkey : ¬(key.text? == some outputPathParameter) = true := by
      intro hkey
      cases htext.symm.trans (h (beq_iff_eq.mp hkey))
    rw [Value.unmarked_eq_text htext, substitute, if_neg hkey]

/-- Putting an item into an entry of the parameters fills it, and does nothing else. -/
theorem putInEntry_eq_iff {key value : Value} {result : Value × Value} :
    (key, putInValue l.itemToken (substitute key value.unmarked item) value.unmarked) = result ↔
      Fills l item (key, value) result := by
  have htoken := l.itemToken_toList_ne_nil
  -- Unless the entry is a text that names the file which output goes to, the item is put in.
  by_cases hother : key.text? = some outputPathParameter → value.text? = none
  · rw [substitute_of_not_outputPath item hother]
    constructor
    · rintro rfl
      exact .item hother ((putInValue_eq_iff htoken value).mp rfl)
    · rintro (⟨hkey, htext, -, -⟩ | ⟨-, hfilled⟩)
      · cases htext.symm.trans (hother hkey)
      · rw [(putInValue_eq_iff htoken value).mpr hfilled]
  · obtain ⟨hkey, hsome⟩ := Classical.not_imp.mp hother
    obtain ⟨s, htext⟩ := Option.ne_none_iff_exists'.mp hsome
    rw [Value.unmarked_eq_text htext, substitute_outputPath item hkey, putInValue]
    constructor
    · rintro rfl
      exact .outputPath hkey htext (ShortName.of_eq_iff.mp rfl) ((putInText_eq_iff htoken).mp rfl)
    · rintro (⟨-, htext', hname, hreplaced⟩ | ⟨hother', -⟩)
      · cases htext.symm.trans htext'
        rw [ShortName.of_eq_iff.mpr hname, (putInText_eq_iff htoken).mpr hreplaced]
      · exact absurd hother' hother

/-- Putting an item into parameters fills each entry, and does nothing else. -/
theorem putItem_eq_iff {parameters filled : Parameters} :
    l.putItem item (Value.unmarkedEntries parameters) = filled ↔
      List.Forall₂ (Fills l item) parameters filled := by
  induction parameters generalizing filled with
  | nil => rw [List.forall₂_nil_left_iff, eq_comm]; rfl
  | cons entry parameters ih =>
    obtain ⟨key, value⟩ := entry
    rw [List.forall₂_cons_left_iff, Value.unmarkedEntries, putItem, List.map_cons]
    constructor
    · rintro rfl
      exact ⟨_, _, (l.putInEntry_eq_iff item).mp rfl, ih.mp rfl, rfl⟩
    · rintro ⟨first, rest, hfirst, hrest, rfl⟩
      rw [← (l.putInEntry_eq_iff item).mpr hfirst, ← ih.mpr hrest]
      rfl

end Fills

/-! ## Applying an item -/

/-- An item can be applied just if the placeholders of the parameters can be followed. -/
theorem applyItem_ok_iff {l : Loop} {parameters : Parameters} {item : String} {results : Results} :
    (∃ filled, l.applyItem parameters item results = .ok filled) ↔
      ∀ r ∈ Reference.ofEntries parameters, r.Resolves results := by
  have hvalue : (∃ w, Substitution.inValue results (.map parameters) = .ok w) ↔
      ∀ r ∈ Reference.ofEntries parameters, r.Resolves results := Substitution.inValue_ok_iff
  rw [← hvalue, applyItem, Substitution.inValue]
  cases Substitution.inEntries results parameters <;> simp [Except.map]

/-- Into parameters without placeholders the item is put as they are. -/
theorem applyItem_of_closed {l : Loop} {parameters : Parameters}
    (h : Reference.ofEntries parameters = []) (item : String) (results : Results) :
    ∃ filled, l.applyItem parameters item results = .ok filled ∧
      ∀ other, List.Forall₂ (Fills l item) parameters other ↔ other = filled := by
  refine ⟨_, by rw [applyItem, Substitution.inEntries_of_closed results parameters h]; rfl, ?_⟩
  intro other
  rw [← putItem_eq_iff, eq_comm]

/-- Where the only placeholders of the parameters stand in occurrences of the item's token, an item
can be applied just if the placeholders of the token can be followed, unless it occurs nowhere. So
every item is put in as it should be, whatever the results, if the token holds no placeholder, as
when the item's name has no point, or does not occur. Otherwise results that lack its placeholders
bar every item. -/
theorem applyItem_fills (l : Loop) (parameters : Parameters)
    (honly : ∀ s, (Value.map parameters).HoldsText s → Reference.OnlyWithin l.itemToken s) :
    (∀ item results, (∃ filled, l.applyItem parameters item results = .ok filled) ↔
      ∀ s, (Value.map parameters).HoldsText s → l.itemToken.toList <:+: s.toList →
        ∀ r ∈ Reference.ofText l.itemToken, r.Resolves results) ∧
    ((∀ s, (Value.map parameters).HoldsText s → l.itemToken.toList <:+: s.toList →
        Reference.ofText l.itemToken = []) →
      ∀ item results, ∃ filled, l.applyItem parameters item results = .ok filled ∧
        ∀ other, List.Forall₂ (Fills l item) parameters other ↔ other = filled) ∧
    ('.' ∉ l.itemName.toList → Reference.ofText l.itemToken = []) := by
  have hmem (r : Reference) : r ∈ Reference.ofEntries parameters ↔
      ∃ s, (Value.map parameters).HoldsText s ∧ l.itemToken.toList <:+: s.toList ∧
        r ∈ Reference.ofText l.itemToken := by
    change r ∈ Reference.ofValue (.map parameters) ↔ _
    rw [Reference.mem_ofValue_iff]
    exact exists_congr fun s => and_congr_right fun hs => (honly s hs).mem_ofText_iff
  refine ⟨fun item results => ?_, fun hclosed => ?_, l.ofText_itemToken_of_point_notMem⟩
  · rw [applyItem_ok_iff]
    constructor
    · intro h s hs htoken r hr
      exact h r ((hmem r).mpr ⟨s, hs, htoken, hr⟩)
    · intro h r hr
      obtain ⟨s, hs, htoken, hr⟩ := (hmem r).mp hr
      exact h s hs htoken r hr
  · refine applyItem_of_closed (List.eq_nil_iff_forall_not_mem.mpr fun r hr => ?_)
    obtain ⟨s, hs, htoken, hr⟩ := (hmem r).mp hr
    rw [hclosed s hs htoken] at hr
    cases hr

/-- With no results, a parameter that is the token becomes the item if the item's name has no point,
while a token that names a step and an output bars the item. -/
theorem applyItem_fills_token :
    applyItem ⟨"x.dtsx,y.dtsx", "pkg"⟩ [(.text "file_path", .text "\x7bpkg\x7d")] "x.dtsx" [] =
        .ok [(.text "file_path", .text "x.dtsx")] ∧
      ¬∃ filled, applyItem ⟨"x.dtsx,y.dtsx", "pkg.name"⟩
        [(.text "file_path", .text "\x7bpkg.name\x7d")] "x.dtsx" [] = .ok filled := by
  have honly (l : Loop) (s : String)
      (h : (Value.map [(.text "file_path", .text l.itemToken)]).HoldsText s) :
      Reference.OnlyWithin l.itemToken s := by
    obtain - | - | - | ⟨hentry, hs⟩ := h
    cases List.mem_singleton.mp hentry
    cases hs
    exact Reference.onlyWithin_self l.itemToken
  constructor
  · obtain ⟨-, hfills, hclosed⟩ := applyItem_fills ⟨"x.dtsx,y.dtsx", "pkg"⟩
      [(.text "file_path", .text "\x7bpkg\x7d")] (honly ⟨"x.dtsx,y.dtsx", "pkg"⟩)
    obtain ⟨filled, hfilled, hunique⟩ := hfills (fun _ _ _ => hclosed (by decide)) "x.dtsx" []
    have hreplaced : Text.Replaced "\x7bpkg\x7d".toList "x.dtsx".toList "\x7bpkg\x7d".toList
        "x.dtsx".toList := (Text.replaceAll_eq_iff (by decide)).mp (by decide)
    rw [hfilled, ← (hunique _).mp (.cons (.item (by decide) (.text hreplaced)) .nil)]
  · rw [(applyItem_fills ⟨"x.dtsx,y.dtsx", "pkg.name"⟩
      [(.text "file_path", .text "\x7bpkg.name\x7d")] (honly ⟨"x.dtsx,y.dtsx", "pkg.name"⟩)).1]
    intro hresolves
    obtain ⟨j, hj⟩ := hresolves "\x7bpkg.name\x7d" (.entry List.mem_cons_self .text)
      List.infix_rfl ⟨"pkg", "name"⟩ (by decide +kernel)
    cases hj

end Runbook.Loop
