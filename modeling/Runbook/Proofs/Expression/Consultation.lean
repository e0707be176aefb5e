import Mathlib.Data.List.Nodup
import Runbook.Proofs.Expression.Expansion

/-!
# The variables that an expansion consults

What a text is resolved to depends on the variables under those names only that are looked up on the
way: for a token in the user's scope the bare name and the scoped one, for every other token outside
of the system's scope the name that it gives, and further the names that the texts of the variables
found there lead to. Two tables that have the same under all of these names, or nothing, resolve the
text alike, to every depth and however their variables refer to each other.

The module introduces:

* `Expression.LooksUp`: the names that a reference is looked up under;
* `Expression.Consults`: the names that are looked up for a text;
* `Expression.Agree`: two tables have the same variable under a name, or none;
* `Expression.IsIdle`: a reference that nothing is put in the place of;
* `Expression.TakesLong`: a text that is taken cannot be written.

The main result is `Expression.resolve_determined_by_consulted`.
-/

namespace Runbook.Expression

/-- The names that a reference is looked up under. What the system knows is not looked up. -/
inductive LooksUp : List Char → List Char → Prop
  | bareName (name : List Char) : LooksUp (userScope ++ name) name
  | scopedName (name : List Char) : LooksUp (userScope ++ name) (userScope ++ name)
  | plain {name : List Char} : ¬userScope <+: name → ¬systemScope <+: name → LooksUp name name

/-- The names that are looked up for the tokens of a text and of what these are replaced by. -/
inductive Consults (table : Table) : List Char → List Char → Prop
  | token {cs reference name : List Char} {ps : List Piece} :
      Consists cs ps → Piece.token reference ∈ ps → LooksUp reference name → Consults table cs name
  /-- The text of a variable leads on. -/
  | further {cs reference name : List Char} {ps : List Piece} {entry : String × String} :
      Consists cs ps → Piece.token reference ∈ ps → Names table reference entry →
      Consults table entry.2.toList name → Consults table cs name

/-- Two tables have the same variable under a name, or none. -/
def Agree (table table' : Table) (name : List Char) : Prop :=
  ∀ entry, IsFirst table name entry ↔ IsFirst table' name entry

/-- A reference outside of the system's scope that names no variable, or an empty one. -/
structure IsIdle (table : Table) (reference : List Char) : Prop where
  /-- The system does not know it. -/
  not_systemScope : ¬systemScope <+: reference
  /-- There is no text for it. -/
  empty : ∀ entry, Names table reference entry → entry.2 = ""

variable {table table' : Table} {reference cs : List Char} {ps : List Piece}

/-! ## What a reference stands for -/

theorem Agree.symm {name : List Char} (h : Agree table table' name) : Agree table' table name :=
  fun entry => (h entry).symm

/-- A reference names the same variable in a table that agrees on all names it is looked up under.
-/
theorem Names.of_agree {entry : String × String} (hnames : Names table reference entry)
    (h : ∀ name, LooksUp reference name → Agree table table' name) :
    Names table' reference entry := by
  cases hnames with
  | bareName hfirst => exact .bareName ((h _ (.bareName _) entry).mp hfirst)
  | scopedName hnone hfirst =>
    -- The scoped name counts because the other table, too, has nothing under the bare one.
    refine .scopedName (fun other hother => ?_) ((h _ (.scopedName _) entry).mp hfirst)
    exact hnone other ((h _ (.bareName _) other).mpr hother)
  | plain huser hsystem hfirst =>
    exact .plain huser hsystem ((h _ (.plain huser hsystem) entry).mp hfirst)

/-- A reference is looked up under the name of the variable that it names. -/
theorem Names.looksUp {entry : String × String} (hnames : Names table reference entry) :
    LooksUp reference entry.1.toList := by
  cases hnames with
  | bareName hfirst =>
    rw [hfirst.1]
    exact .bareName _
  | scopedName _ hfirst =>
    rw [hfirst.1]
    exact .scopedName _
  | plain huser hsystem hfirst =>
    rw [hfirst.1]
    exact .plain huser hsystem

/-- A name that a reference is looked up under stands at the end of the reference. -/
theorem LooksUp.suffix {name : List Char} (h : LooksUp reference name) : name <:+ reference := by
  cases h with
  | bareName => exact List.suffix_append _ _
  | scopedName => exact List.suffix_rfl
  | plain => exact List.suffix_rfl

/-- Where the references of some texts lead to these texts only, every name that is looked up for
one of them stands at the end of such a reference. -/
theorem Consults.exists_suffix {texts : List (List Char)} {name : List Char}
    (hclosed : ∀ cs ∈ texts, ∀ reference, Piece.token reference ∈ pieces cs →
      ∀ entry, Names table reference entry → entry.2.toList ∈ texts)
    (h : Consults table cs name) (hcs : cs ∈ texts) :
    ∃ cs ∈ texts, ∃ reference, Piece.token reference ∈ pieces cs ∧ name <:+ reference := by
  induction h with
  | token hps hmem hname => exact ⟨_, hcs, _, hps.pieces_eq ▸ hmem, hname.suffix⟩
  | further hps hmem hentry _ ih => exact ih (hclosed _ hcs _ (hps.pieces_eq ▸ hmem) _ hentry)

theorem entry?_congr (hsystem : ¬systemScope <+: reference)
    (h : ∀ name, LooksUp reference name → Agree table table' name) :
    entry? table reference = entry? table' reference := by
  refine Option.ext fun entry => ?_
  have hiff : Names table reference entry ↔ Names table' reference entry :=
    ⟨fun hnames => hnames.of_agree h,
      fun hnames => hnames.of_agree fun name hname => (h name hname).symm⟩
  rw [names_iff, names_iff] at hiff
  simpa only [hsystem, not_false_eq_true, true_and] using hiff

theorem replacement?_congr (h : ∀ name, LooksUp reference name → Agree table table' name) :
    replacement? table reference = replacement? table' reference := by
  unfold replacement?
  split
  case isTrue => rfl
  case isFalse hsystem => rw [entry?_congr (mt List.isPrefixOf_iff_prefix.mpr hsystem) h]

/-- What a reference is replaced by is the system's marker or the text of the variable it names. -/
theorem eq_of_replacement? {text : List Char} (h : replacement? table reference = some text) :
    text = systemMarker reference ∨
      ∃ entry, Names table reference entry ∧ text = entry.2.toList := by
  unfold replacement? at h
  split at h
  case isTrue => exact .inl (Option.some.inj h).symm
  case isFalse hsystem =>
    split at h
    case h_1 name found hentry =>
      split at h
      · cases h
      · have hnames : Names table reference (name, found) :=
          names_iff.mpr ⟨mt List.isPrefixOf_iff_prefix.mpr hsystem, hentry⟩
        exact .inr ⟨_, hnames, (Option.some.inj h).symm⟩
    case h_2 => cases h

/-! ## Two tables -/

/-- A text is expanded alike under two tables that agree on what is looked up for it. -/
theorem expand_congr (depth : Nat) (h : ∀ name, Consults table cs name → Agree table table' name) :
    expand table depth cs = expand table' depth cs := by
  -- Each level of depth leads on to the texts of variables, for which no other names are looked up.
  induction depth generalizing cs with
  | zero => rw [expand_zero, expand_zero]
  | succ depth ih =>
    have hps : Consists cs (pieces cs) := pieces_eq_iff.mp rfl
    rw [expand_succ, expand_succ]
    refine List.flatMap_congr fun piece hmem => ?_
    cases piece with
    | char c => rfl
    | token reference =>
      have hsame := replacement?_congr fun name hname => h name (.token hps hmem hname)
      rw [Piece.expanded, Piece.expanded, ← hsame]
      cases hreplaced : replacement? table reference with
      | none => rfl
      | some text =>
        rcases eq_of_replacement? hreplaced with rfl | ⟨entry, hnames, rfl⟩
        · have hmarker : ']' ∉ systemMarker reference :=
            bracket_notMem_systemMarker (hps.isReference hmem).bracket_notMem
          dsimp only
          rw [expand_of_bracket_notMem hmarker, expand_of_bracket_notMem hmarker]
        · exact ih fun name hname => h name (.further hps hmem hnames hname)

/-- The texts of the same variables are taken. -/
theorem taken_congr (depth : Nat) (h : ∀ name, Consults table cs name → Agree table table' name) :
    taken table depth cs = taken table' depth cs := by
  induction depth generalizing cs with
  | zero => rfl
  | succ depth ih =>
    have hps : Consists cs (pieces cs) := pieces_eq_iff.mp rfl
    rw [taken, taken]
    refine List.flatMap_congr fun piece hmem => ?_
    cases piece with
    | char c => rfl
    | token reference =>
      dsimp only
      split
      case isTrue => rfl
      case isFalse hscope =>
        have hsystem : ¬systemScope <+: reference := mt List.isPrefixOf_iff_prefix.mpr hscope
        rw [← entry?_congr hsystem fun name hname => h name (.token hps hmem hname)]
        cases hentry : entry? table reference with
        | none => rfl
        | some entry =>
          have hnames : Names table reference entry := names_iff.mpr ⟨hsystem, hentry⟩
          refine congrArg (entry.1 :: ·) (ih fun name hname => ?_)
          exact h name (.further hps hmem hnames hname)

/-! ## Idle references -/

/-- The pieces of a text make up the text. -/
theorem Consists.flatMap_text (h : Consists cs ps) : ps.flatMap Piece.text = cs := by
  induction h with
  | nil => rfl
  | token _ _ ih => rw [List.flatMap_cons, ih]
  | char _ _ ih => rw [List.flatMap_cons, ih]; rfl

/-- A text in which all references are idle stays as it is. -/
theorem expand_of_isIdle (depth : Nat) (hps : Consists cs ps)
    (h : ∀ reference, Piece.token reference ∈ ps → IsIdle table reference) :
    expand table depth cs = cs := by
  cases depth with
  | zero => exact expand_zero table cs
  | succ depth =>
    have hkept : ∀ piece ∈ ps, piece.expanded table depth = piece.text := by
      intro piece hmem
      cases piece with
      | char c => rfl
      | token reference =>
        obtain ⟨hsystem, hempty⟩ := h reference hmem
        rw [Piece.expanded, replacement?_eq_none hsystem hempty]
    rw [expand_succ, hps.pieces_eq, List.flatMap_congr hkept, hps.flatMap_text]

/-! ## Values -/

/-- The text of a value that is taken for a text to some depth cannot be written. -/
def TakesLong (values : List (String × Value)) (depth : Int) (text : String) : Prop :=
  ∃ entry ∈ values, entry.2.holdsLongInteger = true ∧
    entry.1 ∈ taken (tableOf values) depth.toNat text.toList

section Values

variable {values values' : List (String × Value)} {name : String}

/-- Where all names differ, the variable that counts under a name is the one of that name. -/
theorem isFirst_iff_mem (hnames : (table.map Prod.fst).Nodup) {entry : String × String} :
    IsFirst table name.toList entry ↔ entry.1 = name ∧ entry ∈ table := by
  constructor
  · intro hfirst
    exact ⟨String.toList_inj.mp hfirst.1, hfirst.mem⟩
  · rintro ⟨rfl, hmem⟩
    obtain ⟨before, after, rfl⟩ := List.append_of_mem hmem
    refine ⟨rfl, before, after, rfl, fun other hother hname => ?_⟩
    rw [List.map_append, List.map_cons] at hnames
    have hne := (List.nodup_append.mp hnames).2.2 other.1 (List.mem_map_of_mem hother) entry.1
      List.mem_cons_self
    exact hne (String.toList_inj.mp hname)

theorem mem_tableOf {entry : String × String} :
    entry ∈ tableOf values ↔
      ∃ value, (entry.1, value) ∈ values ∧ value ≠ .null ∧ entry.2 = value.plain := by
  rw [tableOf, List.mem_filterMap]
  constructor
  · rintro ⟨⟨name, value⟩, hmem, hentry⟩
    cases value
    case null => cases hentry
    all_goals
      obtain rfl := Option.some.inj hentry
      exact ⟨_, hmem, nofun, rfl⟩
  · rintro ⟨value, hmem, hvalue, htext⟩
    refine ⟨(entry.1, value), hmem, ?_⟩
    obtain ⟨name, text⟩ := entry
    cases htext
    cases value
    case null => exact absurd rfl hvalue
    all_goals rfl

theorem nodup_tableOf (hnames : (values.map Prod.fst).Nodup) :
    ((tableOf values).map Prod.fst).Nodup := by
  refine hnames.sublist ?_
  induction values with
  | nil => exact .slnil
  | cons entry values ih =>
    obtain ⟨name, value⟩ := entry
    have hrest := ih (List.nodup_cons.mp hnames).2
    cases value
    case null => exact hrest.cons name
    all_goals exact hrest.cons_cons name

/-- The names of the variables whose texts are taken are looked up. -/
theorem consults_of_mem_taken {depth : Nat} (h : name ∈ taken table depth cs) :
    Consults table cs name.toList := by
  induction depth generalizing cs with
  | zero => cases h
  | succ depth ih =>
    have hps : Consists cs (pieces cs) := pieces_eq_iff.mp rfl
    rw [taken] at h
    obtain ⟨piece, hmem, hname⟩ := List.mem_flatMap.mp h
    cases piece with
    | char c => cases hname
    | token reference =>
      dsimp only at hname
      split at hname
      case isTrue => cases hname
      case isFalse hscope =>
        split at hname
        case h_2 => cases hname
        case h_1 found text hentry =>
          have hnames : Names table reference (found, text) :=
            names_iff.mpr ⟨mt List.isPrefixOf_iff_prefix.mpr hscope, hentry⟩
          rcases List.mem_cons.mp hname with rfl | hfurther
          · exact .token hps hmem hnames.looksUp
          · exact .further hps hmem hnames (ih hfurther)

/-- Tables of values agree where the values do. -/
theorem agree_tableOf (hnames : (values.map Prod.fst).Nodup)
    (hnames' : (values'.map Prod.fst).Nodup)
    (h : ∀ value, (name, value) ∈ values ↔ (name, value) ∈ values') :
    Agree (tableOf values) (tableOf values') name.toList := by
  intro entry
  rw [isFirst_iff_mem (nodup_tableOf hnames), isFirst_iff_mem (nodup_tableOf hnames')]
  refine and_congr_right fun hname => ?_
  rw [mem_tableOf, mem_tableOf, hname]
  simp only [h]

/-- Tables of values agree on what is looked up for a text if the values do. -/
theorem agree_of_consults (hnames : (values.map Prod.fst).Nodup)
    (hnames' : (values'.map Prod.fst).Nodup)
    (h : ∀ name : String, Consults (tableOf values) cs name.toList →
      ∀ value, (name, value) ∈ values ↔ (name, value) ∈ values')
    {name : List Char} (hname : Consults (tableOf values) cs name) :
    Agree (tableOf values) (tableOf values') name := by
  rw [← String.toList_ofList (l := name)] at hname ⊢
  exact agree_tableOf hnames hnames' (h _ hname)

/-- Replacing tokens under values fails just if a text that is taken cannot be written. -/
theorem resolveValues_cases (values : List (String × Value)) (depth : Int) (text : String) :
    (TakesLong values depth text ∧
        resolveValues values depth text = .error .tooLongToWrite) ∨
      (¬TakesLong values depth text ∧
        resolveValues values depth text = .ok (resolve (tableOf values) depth text)) := by
  unfold resolveValues
  dsimp only
  split
  case isTrue hlong =>
    simp only [List.any_eq_true, List.mem_filter, List.contains_iff_mem] at hlong
    obtain ⟨entry, ⟨hmem, hlong⟩, htaken⟩ := hlong
    exact .inl ⟨⟨entry, hmem, hlong, htaken⟩, rfl⟩
  case isFalse hwritten =>
    simp only [List.any_eq_true, List.mem_filter, List.contains_iff_mem] at hwritten
    refine .inr ⟨?_, rfl⟩
    rintro ⟨entry, hmem, hlong, htaken⟩
    exact hwritten ⟨entry, ⟨hmem, hlong⟩, htaken⟩

/-- Tokens are replaced alike under values that agree on what is looked up for a text, and if a text
cannot be written, then under both. -/
theorem resolveValues_congr {text : String} (depth : Int) (hnames : (values.map Prod.fst).Nodup)
    (hnames' : (values'.map Prod.fst).Nodup)
    (h : ∀ name : String, Consults (tableOf values) text.toList name.toList →
      ∀ value, (name, value) ∈ values ↔ (name, value) ∈ values') :
    resolveValues values depth text = resolveValues values' depth text := by
  have hagree : ∀ name, Consults (tableOf values) text.toList name →
      Agree (tableOf values) (tableOf values') name :=
    fun name hname => agree_of_consults hnames hnames' h hname
  -- Values that cannot be written matter under names that are looked up, and so they are in both.
  have hlong : TakesLong values depth text ↔ TakesLong values' depth text := by
    unfold TakesLong
    rw [← taken_congr depth.toNat hagree]
    refine exists_congr fun entry => and_congr_left fun hentry => ?_
    exact h entry.1 (consults_of_mem_taken hentry.2) entry.2
  have hresolve : resolve (tableOf values) depth text = resolve (tableOf values') depth text := by
    rw [resolve, resolve, expand_congr depth.toNat hagree]
  rcases resolveValues_cases values depth text with ⟨htakes, heq⟩ | ⟨htakes, heq⟩ <;>
    rcases resolveValues_cases values' depth text with ⟨htakes', heq'⟩ | ⟨htakes', heq'⟩
  · rw [heq, heq']
  · exact absurd (hlong.mp htakes) htakes'
  · exact absurd (hlong.mpr htakes') htakes
  · rw [heq, heq', hresolve]

/-- A value that holds an integer of too many digits is no empty text. -/
theorem plain_ne_empty {value : Value} (h : value.holdsLongInteger = true) : value.plain ≠ "" := by
  -- The values that can hold one are written with digits or between brackets.
  cases value with
  | integer n =>
    have hdigits (n : Nat) : Number.decimal n ≠ [] := Nat.toDigits_ne_nil
    rw [Value.plain, Value.written, Ne, String.ofList_eq_empty_iff, Number.decimalText]
    · split
      · exact List.cons_ne_nil _ _
      · exact hdigits _
    all_goals nofun
  | list items => simp [Value.plain, Value.written]
  | tuple items =>
    match items with
    | [] => cases h
    | [item] => simp [Value.plain, Value.written]
    | first :: second :: items => simp [Value.plain, Value.written]
  | set items =>
    match items with
    | [] => cases h
    | item :: items => simp [Value.plain, Value.written]
  | map entries => simp [Value.plain, Value.written]
  | _ => cases h

/-- Where all references of a text are idle, empty texts only are taken. -/
theorem empty_of_mem_taken {depth : Nat} (hps : Consists cs ps)
    (h : ∀ reference, Piece.token reference ∈ ps → IsIdle table reference)
    (hname : name ∈ taken table depth cs) : (name, "") ∈ table := by
  obtain - | depth := depth
  · cases hname
  rw [taken, hps.pieces_eq] at hname
  obtain ⟨piece, hmem, hname⟩ := List.mem_flatMap.mp hname
  cases piece with
  | char c => cases hname
  | token reference =>
    obtain ⟨hsystem, hempty⟩ := h reference hmem
    dsimp only at hname
    rw [if_neg (mt List.isPrefixOf_iff_prefix.mp hsystem)] at hname
    cases hentry : entry? table reference with
    | none =>
      rw [hentry] at hname
      cases hname
    | some entry =>
      have hnames : Names table reference entry := names_iff.mpr ⟨hsystem, hentry⟩
      obtain ⟨found, text⟩ := entry
      obtain rfl : text = "" := hempty _ hnames
      rw [hentry] at hname
      -- The empty text has no tokens, so that no other text is taken for it.
      have hnothing : taken table depth "".toList = [] := by cases depth <;> rfl
      simp only [hnothing, List.mem_singleton] at hname
      rw [hname]
      exact hnames.mem

/-- A text stays as it is if there is no value, or an empty one, for each of its tokens. -/
theorem resolveValues_of_isIdle {text : String} (depth : Int)
    (hnames : (values.map Prod.fst).Nodup) (hps : Consists text.toList ps)
    (h : ∀ reference, Piece.token reference ∈ ps → IsIdle (tableOf values) reference) :
    resolveValues values depth text = .ok text := by
  rcases resolveValues_cases values depth text with ⟨htakes, -⟩ | ⟨-, heq⟩
  · -- What is taken is empty, and a value that cannot be written is not.
    obtain ⟨⟨name, value⟩, hvalue, hlong, htaken⟩ := htakes
    obtain ⟨other, hother, -, hempty⟩ := mem_tableOf.mp (empty_of_mem_taken hps h htaken)
    obtain rfl : other = value :=
      congrArg Prod.snd (List.inj_on_of_nodup_map hnames hother hvalue rfl)
    exact absurd hempty.symm (plain_ne_empty hlong)
  · rw [heq, resolve, expand_of_isIdle depth.toNat hps h, String.ofList_toList]

end Values

/-- What a text is resolved to is determined by the variables that are looked up for it. Two tables
that agree on all names under which its tokens and those in the texts of the variables found there
are looked up resolve it alike, to every depth, and so do two collections of values, which fail
alike if a text cannot be written. A text whose tokens all stand for nothing stays as it is. -/
theorem resolve_determined_by_consulted (text : String) (depth : Int) :
    (∀ table table' : Table,
        (∀ name, Consults table text.toList name → Agree table table' name) →
        resolve table depth text = resolve table' depth text) ∧
      (∀ values values' : List (String × Value),
        (values.map Prod.fst).Nodup → (values'.map Prod.fst).Nodup →
        (∀ name : String, Consults (tableOf values) text.toList name.toList →
          ∀ value, (name, value) ∈ values ↔ (name, value) ∈ values') →
        resolveValues values depth text = resolveValues values' depth text) ∧
      ∀ ps, Consists text.toList ps →
        (∀ table : Table,
          (∀ reference, Piece.token reference ∈ ps → IsIdle table reference) →
          resolve table depth text = text) ∧
        ∀ values : List (String × Value), (values.map Prod.fst).Nodup →
          (∀ reference, Piece.token reference ∈ ps → IsIdle (tableOf values) reference) →
          resolveValues values depth text = .ok text := by
  refine ⟨fun table table' h => ?_, fun values values' hnames hnames' h => ?_,
    fun ps hps => ⟨fun table h => ?_, fun values hnames h => ?_⟩⟩
  · rw [resolve, resolve, expand_congr depth.toNat h]
  · exact resolveValues_congr depth hnames hnames' h
  · rw [resolve, expand_of_isIdle depth.toNat hps h, String.ofList_toList]
  · exact resolveValues_of_isIdle depth hnames hps h

/-- Two variables that refer to each other, and a third one that neither of them leads to. -/
def twistedValues : List (String × Value) :=
  [("A", .text "@[User::B]"), ("B", .text "@[A]"), ("C", .text "@[System::C]")]

/-- The third variable is not looked up for the first one. -/
theorem ne_of_consults_twistedValues {name : List Char}
    (h : Consults (tableOf twistedValues) "@[A]".toList name) : name ≠ "C".toList := by
  rintro rfl
  have hfirst : pieces "@[A]".toList = [.token "A".toList] := by decide +kernel
  have hsecond : pieces "@[User::B]".toList = [.token "User::B".toList] := by decide +kernel
  have hreferences : ∀ cs ∈ ["@[A]".toList, "@[User::B]".toList], ∀ reference,
      Piece.token reference ∈ pieces cs → reference ∈ ["A".toList, "User::B".toList] := by
    intro cs hcs reference hreference
    rcases List.mem_pair.mp hcs with rfl | rfl
    · rw [hfirst, List.mem_singleton] at hreference
      exact List.mem_pair.mpr (.inl (Piece.token.inj hreference))
    · rw [hsecond, List.mem_singleton] at hreference
      exact List.mem_pair.mpr (.inr (Piece.token.inj hreference))
  -- The two references lead to the texts of each other, and neither of them ends in the third name.
  have hlead : ∀ reference ∈ ["A".toList, "User::B".toList], ¬"C".toList <:+ reference ∧
      ∀ entry ∈ entry? (tableOf twistedValues) reference,
        entry.2.toList ∈ ["@[A]".toList, "@[User::B]".toList] := by decide +kernel
  obtain ⟨cs, hcs, reference, hreference, hsuffix⟩ := h.exists_suffix
    (fun cs hcs reference hreference entry hentry =>
      (hlead reference (hreferences cs hcs reference hreference)).2 entry (names_iff.mp hentry).2)
    List.mem_cons_self
  exact (hlead reference (hreferences cs hcs reference hreference)).1 hsuffix

/-- Two variables that refer to each other are resolved alike with a third one and without it, and
without any of them the token stays. -/
theorem resolve_determined_by_consulted_twisted :
    (∀ name, Consults (tableOf twistedValues) "@[A]".toList name →
      Agree (tableOf twistedValues) (tableOf (twistedValues.take 2)) name) ∧
    resolve (tableOf twistedValues) 4 "@[A]" =
      resolve (tableOf (twistedValues.take 2)) 4 "@[A]" ∧
    resolveValues twistedValues 4 "@[A]" = resolveValues (twistedValues.take 2) 4 "@[A]" ∧
    IsIdle [] "A".toList ∧ resolve [] 4 "@[A]" = "@[A]" ∧
    resolveValues [] 4 "@[A]" = .ok "@[A]" := by
  obtain ⟨htables, hvalues, hidle⟩ := resolve_determined_by_consulted "@[A]" 4
  have hsame : ∀ name : String, Consults (tableOf twistedValues) "@[A]".toList name.toList →
      ∀ value, (name, value) ∈ twistedValues ↔ (name, value) ∈ twistedValues.take 2 := by
    intro name hname value
    have hne : name ≠ "C" := fun heq => ne_of_consults_twistedValues hname (congrArg _ heq)
    simp [twistedValues, hne]
  have hagree : ∀ name, Consults (tableOf twistedValues) "@[A]".toList name →
      Agree (tableOf twistedValues) (tableOf (twistedValues.take 2)) name :=
    fun name hname => agree_of_consults (by decide) (by decide) hsame hname
  have hempty : IsIdle [] "A".toList :=
    ⟨by decide, fun entry hentry => nomatch (names_iff.mp hentry).2⟩
  have hsingle : Consists "@[A]".toList [.token "A".toList] :=
    pieces_eq_iff.mp (by decide +kernel)
  have hall : ∀ reference, Piece.token reference ∈ [Piece.token "A".toList] →
      IsIdle [] reference := by
    intro reference hreference
    cases List.mem_singleton.mp hreference
    exact hempty
  exact ⟨hagree, htables _ _ hagree, hvalues _ _ (by decide) (by decide) hsame, hempty,
    (hidle _ hsingle).1 [] hall, (hidle _ hsingle).2 [] .nil hall⟩

end Runbook.Expression
