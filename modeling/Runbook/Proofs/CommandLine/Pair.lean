import Runbook.CommandLine.Expand
import Runbook.Proofs.Expression.Token
import Runbook.Proofs.Text.Split

/-!
# Variables that are given as pairs

A pair is a name, an equals sign and a value. The name is not empty and holds no equals sign, the
value may hold some. The variables of a command are those of its pairs, and under a name counts the
last one.

The module introduces:

* `CommandLine.IsName`: what can stand before the equals sign;
* `CommandLine.pairOf`: the pair that gives a variable;
* `CommandLine.LastGives`: the value that the last pair of a name gives;
* `CommandLine.IsTableOf`: the variables that pairs give.

The main results are `CommandLine.exists_readPairs_iff` and `CommandLine.isTableOf_readPairs`.
-/

namespace Runbook.CommandLine

/-- What can stand before the equals sign of a pair. -/
structure IsName (name : String) : Prop where
  /-- Something stands there. -/
  ne_empty : name ≠ ""
  /-- The first equals sign ends it. -/
  sign_notMem : '=' ∉ name.toList

/-- The pair that gives a variable. -/
def pairOf (entry : String × String) : String :=
  entry.1 ++ "=" ++ entry.2

/-- The last pair of a name gives it a value. -/
structure LastGives (pairs : List String) (name value : String) : Prop where
  /-- It is a name. -/
  isName : IsName name
  /-- The pair is followed by none of the same name. -/
  last : ∃ before after, pairs = before ++ pairOf (name, value) :: after ∧
    ∀ other, pairOf (name, other) ∉ after

/-- A table has the variables that pairs give: under each name the value of the last pair. -/
def IsTableOf (pairs : List String) (table : Expression.Table) : Prop :=
  ∀ name value, Expression.IsFirst table name.toList (name, value) ↔ LastGives pairs name value

variable {pair name value : String} {pairs : List String} {entries : List (String × String)}

theorem toList_pairOf (entry : String × String) :
    (pairOf entry).toList = entry.1.toList ++ '=' :: entry.2.toList := by
  simp [pairOf]

/-- Pairs are read as what they give, and nothing else is read as a pair. -/
theorem readPair_eq_ok_iff :
    readPair pair = .ok (name, value) ↔ IsName name ∧ pair = pairOf (name, value) := by
  constructor
  · intro h
    unfold readPair at h
    split at h
    case h_1 => cases h
    case h_2 => cases h
    case h_3 front rest hne hcut =>
      -- What is read as the name was cut off at the first equals sign.
      obtain ⟨rfl, rfl⟩ := Prod.mk.inj (Except.ok.inj h)
      refine ⟨⟨fun hempty => hne (String.ofList_eq_empty_iff.mp hempty), ?_⟩, ?_⟩
      · rw [String.toList_ofList]
        exact Text.notMem_of_cut? hcut
      · rw [← String.toList_inj, toList_pairOf, String.toList_ofList, String.toList_ofList]
        exact Text.eq_of_cut? hcut
  · rintro ⟨hname, rfl⟩
    have hcut : Text.cut? '=' (pairOf (name, value)).toList = some (name.toList, value.toList) := by
      rw [toList_pairOf]
      exact Text.cut?_append hname.sign_notMem value.toList
    unfold readPair
    split
    case h_1 hnone => cases hcut.symm.trans hnone
    case h_2 rest hempty =>
      have hnil := (Prod.mk.inj (Option.some.inj (hcut.symm.trans hempty))).1
      exact absurd (String.toList_eq_nil_iff.mp hnil) hname.ne_empty
    case h_3 front rest _ hfound =>
      obtain ⟨rfl, rfl⟩ := Prod.mk.inj (Option.some.inj (hcut.symm.trans hfound))
      rw [String.ofList_toList, String.ofList_toList]

/-- A pair gives one variable only. -/
theorem IsName.pairOf_inj {name' value' : String} (h : IsName name) (h' : IsName name')
    (heq : pairOf (name, value) = pairOf (name', value')) : name = name' ∧ value = value' := by
  have hread : readPair (pairOf (name', value')) = .ok (name, value) :=
    readPair_eq_ok_iff.mpr ⟨h, heq.symm⟩
  have hread' : readPair (pairOf (name', value')) = .ok (name', value') :=
    readPair_eq_ok_iff.mpr ⟨h', rfl⟩
  exact Prod.mk.inj (Except.ok.inj (hread.symm.trans hread'))

/-- Pairs are read one by one. -/
theorem mapM_readPair_eq_ok_iff :
    pairs.mapM readPair = .ok entries ↔
      (∀ entry ∈ entries, IsName entry.1) ∧ pairs = entries.map pairOf := by
  induction pairs generalizing entries with
  | nil =>
    constructor
    · intro h
      obtain rfl : entries = [] := (Except.ok.inj h).symm
      exact ⟨nofun, rfl⟩
    · rintro ⟨-, hmap⟩
      rw [List.map_eq_nil_iff.mp hmap.symm]
      rfl
  | cons pair pairs ih =>
    rw [List.mapM_cons]
    constructor
    · intro h
      cases hfirst : readPair pair with
      | error fault => rw [hfirst] at h; cases h
      | ok entry =>
        cases hrest : pairs.mapM readPair with
        | error fault => rw [hfirst, hrest] at h; cases h
        | ok others =>
          rw [hfirst, hrest] at h
          obtain rfl : entries = entry :: others := (Except.ok.inj h).symm
          obtain ⟨hname, rfl⟩ := readPair_eq_ok_iff.mp hfirst
          obtain ⟨hnames, rfl⟩ := ih.mp hrest
          exact ⟨List.forall_mem_cons.mpr ⟨hname, hnames⟩, rfl⟩
    · rintro ⟨hnames, hmap⟩
      obtain ⟨entry, others, rfl, rfl, rfl⟩ := List.map_eq_cons_iff.mp hmap.symm
      obtain ⟨hname, hothers⟩ := List.forall_mem_cons.mp hnames
      rw [readPair_eq_ok_iff.mpr ⟨hname, rfl⟩, ih.mpr ⟨hothers, rfl⟩]
      rfl

theorem readPairs_eq_ok_iff {table : Expression.Table} :
    readPairs pairs = .ok table ↔
      (∀ entry ∈ table, IsName entry.1) ∧ pairs = table.reverse.map pairOf := by
  have hreverse : readPairs pairs = .ok table ↔ pairs.mapM readPair = .ok table.reverse := by
    unfold readPairs
    cases pairs.mapM readPair with
    | error fault => exact iff_of_false nofun nofun
    | ok entries =>
      rw [Except.map, Except.ok.injEq, Except.ok.injEq, List.reverse_eq_iff]
  rw [hreverse, mapM_readPair_eq_ok_iff]
  simp only [List.mem_reverse]

/-- Pairs give variables just if each of them gives one. -/
theorem exists_readPairs_iff :
    (∃ table, readPairs pairs = .ok table) ↔
      ∀ pair ∈ pairs, ∃ name value, IsName name ∧ pair = pairOf (name, value) := by
  constructor
  · rintro ⟨table, htable⟩ pair hpair
    obtain ⟨hnames, rfl⟩ := readPairs_eq_ok_iff.mp htable
    obtain ⟨⟨name, value⟩, hmem, rfl⟩ := List.mem_map.mp hpair
    exact ⟨name, value, hnames _ (List.mem_reverse.mp hmem), rfl⟩
  · intro h
    induction pairs with
    | nil => exact ⟨[], rfl⟩
    | cons pair pairs ih =>
      obtain ⟨⟨name, value, hname, rfl⟩, hrest⟩ := List.forall_mem_cons.mp h
      obtain ⟨table, htable⟩ := ih hrest
      obtain ⟨hnames, rfl⟩ := readPairs_eq_ok_iff.mp htable
      refine ⟨table ++ [(name, value)], readPairs_eq_ok_iff.mpr ⟨?_, by simp⟩⟩
      intro entry hentry
      rcases List.mem_append.mp hentry with hmem | hlast
      · exact hnames entry hmem
      · rw [List.mem_singleton.mp hlast]
        exact hname

/-- Under a name counts what the last pair of the name gives. -/
theorem isTableOf_readPairs {table : Expression.Table} (h : readPairs pairs = .ok table) :
    IsTableOf pairs table := by
  intro name value
  obtain ⟨hnames, rfl⟩ := readPairs_eq_ok_iff.mp h
  -- The table holds the pairs from last to first, so the last pair of a name is its first entry.
  constructor
  · rintro ⟨-, before, after, rfl, hfirst⟩
    have hname : IsName name := hnames (name, value) (by simp)
    refine ⟨hname, after.reverse.map pairOf, before.reverse.map pairOf, by simp, ?_⟩
    intro other hother
    obtain ⟨⟨name', value'⟩, hmem, heq⟩ := List.mem_map.mp hother
    have hbefore := List.mem_reverse.mp hmem
    have hname' : IsName name' := hnames (name', value') (List.mem_append_left _ hbefore)
    exact hfirst _ hbefore (congrArg String.toList (hname'.pairOf_inj hname heq).1)
  · rintro ⟨hname, before, after, hsplit, hlast⟩
    obtain ⟨front, rest, htable, -, hrest⟩ := List.map_eq_append_iff.mp hsplit
    obtain ⟨⟨name', value'⟩, back, rfl, heq, rfl⟩ := List.map_eq_cons_iff.mp hrest
    obtain rfl : table = back.reverse ++ (name', value') :: front.reverse := by
      rw [← List.reverse_reverse table, htable]
      simp
    have hname' : IsName name' := hnames (name', value') (by simp)
    obtain ⟨rfl, rfl⟩ := hname'.pairOf_inj hname heq
    refine ⟨rfl, back.reverse, front.reverse, rfl, fun other hother hsame => ?_⟩
    obtain ⟨found, text⟩ := other
    obtain rfl : found = name' := String.toList_inj.mp hsame
    exact hlast text (List.mem_map_of_mem (List.mem_reverse.mp hother))

end Runbook.CommandLine
