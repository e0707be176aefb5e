import Mathlib.Data.List.Forall2
import Runbook.Proofs.Path.Text
import Runbook.Run.Step

/-!
# Anchored paths

The paths among the parameters of a call are anchored at the directory of the workflow: each text
under one of the names of path parameters, or in a list there, becomes an absolute path, the one
that it denotes as seen from the directory. Blank texts, absolute paths and all other values stay as
they are, and so do the names and their order. Parameters that have been anchored are not changed
by anchoring them once more.

The module introduces:

* `Value.StaysPut`: a value that anchoring leaves alone;
* `Value.IsAnchored`, `Value.PathsAnchored`: what has become of a value, and of one that may also
  list paths;
* `EntryAnchored`: what has become of an entry of the parameters.

The main result is `anchorPaths_isAnchored`.
-/

namespace Runbook

/-- Anchoring leaves a value alone: it is no text, or a blank one, or an absolute path. -/
def Value.StaysPut (v : Value) : Prop :=
  ∀ s, v.text? = some s → Text.isBlank s = true ∨ (Path.ofText s).isAbsolute = true

/-- A value has been anchored at a directory. -/
structure Value.IsAnchored (directory : Path) (before after : Value) : Prop where
  /-- What is no text, or a blank one, or an absolute path, is left as it was. -/
  kept : before.StaysPut → after = before
  /-- Every text that is not blank is now an absolute path: the one that it denoted as seen from the
  directory. -/
  placed : ∀ s, before.text? = some s → Text.isBlank s = false →
    ∃ s', after.text? = some s' ∧ (Path.ofText s').isAbsolute = true ∧
      Path.ofText s' = directory.under (Path.ofText s)

/-- A value under the name of a path parameter has been anchored, or the items of a list there. -/
inductive Value.PathsAnchored (directory : Path) : Value → Value → Prop
  | list {items items' : List Value} :
      List.Forall₂ (IsAnchored directory) items items' →
      PathsAnchored directory (.list items) (.list items')
  | single {before after : Value} :
      (∀ items, before ≠ .list items) → IsAnchored directory before after →
      PathsAnchored directory before after

/-- A key that is the name of a path parameter. -/
def Value.IsPathKey (key : Value) : Prop :=
  ∃ name ∈ ["file_path", "file_paths", "output_file_path", "template_file_path",
      "json_file_path", "package_directory"],
    key.text? = some name

/-- An entry of parameters has been anchored at a directory. -/
structure EntryAnchored (directory : Path) (before after : Value × Value) : Prop where
  /-- The key is the same. -/
  key : after.1 = before.1
  /-- The paths under the name of a path parameter are anchored. -/
  path : before.1.IsPathKey → Value.PathsAnchored directory before.2 after.2
  /-- Under any other key the value is left as it was. -/
  other : ¬before.1.IsPathKey → after.2 = before.2

variable {directory : Path} {v : Value}

/-! ## One value -/

theorem anchorItem_of_staysPut (h : v.StaysPut) : anchorItem directory v = v := by
  unfold anchorItem
  split
  case h_1 s htext =>
    have hkept : (Text.isBlank s || (Path.ofText s).isAbsolute) = true :=
      Bool.or_eq_true_iff.mpr (h s htext)
    rw [if_pos hkept]
  case h_2 => rfl

/-- A text that does not stay put is replaced by the path that it denotes under the directory. -/
theorem anchorItem_of_text {s : String} (htext : v.text? = some s) (hblank : Text.isBlank s = false)
    (hrelative : (Path.ofText s).isAbsolute = false) :
    anchorItem directory v = .text (directory.under (Path.ofText s)).text := by
  simp [anchorItem, htext, hblank, hrelative]

theorem isAnchored_anchorItem (hplain : directory.IsPlain) (h : directory.isAbsolute = true)
    (v : Value) : v.IsAnchored directory (anchorItem directory v) := by
  refine ⟨anchorItem_of_staysPut, fun s htext hblank => ?_⟩
  cases habsolute : (Path.ofText s).isAbsolute with
  | true =>
    have hput : v.StaysPut := by
      intro s' htext'
      obtain rfl := Option.some.inj (htext.symm.trans htext')
      exact .inr habsolute
    rw [anchorItem_of_staysPut hput]
    refine ⟨s, htext, habsolute, ?_⟩
    rw [Path.under, if_pos habsolute]
  | false =>
    -- The path is written as a text and must be found again when that text is read.
    have hpath : Path.ofText (directory.under (Path.ofText s)).text =
        directory.under (Path.ofText s) :=
      Path.ofText_text (hplain.under (Path.isPlain_ofText s))
    rw [anchorItem_of_text htext hblank habsolute]
    refine ⟨_, rfl, ?_, hpath⟩
    rw [hpath]
    exact Path.isAbsolute_under h _

/-- What has been anchored stays put. -/
theorem staysPut_anchorItem (hplain : directory.IsPlain) (h : directory.isAbsolute = true)
    (v : Value) : (anchorItem directory v).StaysPut := by
  by_cases hput : v.StaysPut
  · rwa [anchorItem_of_staysPut hput]
  · -- A value that moves is a text that is not blank, so it has been placed.
    intro s' htext'
    obtain ⟨s, hs⟩ := not_forall.mp hput
    obtain ⟨htext, hmoved⟩ := Classical.not_imp.mp hs
    obtain ⟨hblank, -⟩ := not_or.mp hmoved
    obtain ⟨found, hfound, habsolute, -⟩ :=
      (isAnchored_anchorItem hplain h v).placed s htext (Bool.eq_false_iff.mpr hblank)
    obtain rfl := Option.some.inj (htext'.symm.trans hfound)
    exact .inr habsolute

/-- What is no list does not become one. -/
theorem anchorItem_ne_list (h : ∀ items, v ≠ .list items) (items : List Value) :
    anchorItem directory v ≠ .list items := by
  unfold anchorItem
  split
  case h_1 s _ =>
    split
    case isTrue => exact h items
    case isFalse => exact Value.noConfusion
  case h_2 => exact h items

/-- A value that is no list is anchored as an item is. -/
theorem anchorValue_of_ne_list (h : ∀ items, v ≠ .list items) :
    anchorValue directory v = anchorItem directory v := by
  cases v with
  | list items => exact absurd rfl (h items)
  | _ => rfl

theorem pathsAnchored_anchorValue (hplain : directory.IsPlain) (h : directory.isAbsolute = true)
    (v : Value) : v.PathsAnchored directory (anchorValue directory v) := by
  by_cases hlist : ∃ items, v = .list items
  · obtain ⟨items, rfl⟩ := hlist
    refine .list ?_
    rw [List.forall₂_map_right_iff, List.forall₂_same]
    exact fun item _ => isAnchored_anchorItem hplain h item
  · have hsingle : ∀ items, v ≠ .list items := fun items heq => hlist ⟨items, heq⟩
    rw [anchorValue_of_ne_list hsingle]
    exact .single hsingle (isAnchored_anchorItem hplain h v)

/-- Anchored values are not changed by anchoring them once more. -/
theorem anchorValue_anchorValue (hplain : directory.IsPlain) (h : directory.isAbsolute = true)
    (v : Value) :
    anchorValue directory (anchorValue directory v) = anchorValue directory v := by
  have hitem (v : Value) : anchorItem directory (anchorItem directory v) = anchorItem directory v :=
    anchorItem_of_staysPut (staysPut_anchorItem hplain h v)
  by_cases hlist : ∃ items, v = .list items
  · obtain ⟨items, rfl⟩ := hlist
    simp only [anchorValue, List.map_map, Function.comp_def, hitem]
  · have hsingle : ∀ items, v ≠ .list items := fun items heq => hlist ⟨items, heq⟩
    rw [anchorValue_of_ne_list hsingle, anchorValue_of_ne_list (anchorItem_ne_list hsingle), hitem]

/-! ## All parameters -/

/-- The test for the name of a path parameter. -/
theorem any_contains_pathParameters (key : Value) :
    key.text?.any pathParameters.contains = true ↔ key.IsPathKey := by
  unfold Value.IsPathKey
  cases key.text? with
  | none => simp
  | some name =>
    show pathParameters.contains name = true ↔ _
    rw [List.contains_iff_mem]
    exact ⟨fun hmem => ⟨name, hmem, rfl⟩, fun ⟨_, hmem, heq⟩ => Option.some.inj heq ▸ hmem⟩

/-- Anchoring treats each entry by itself. -/
theorem forall₂_anchorPaths (hplain : directory.IsPlain) (h : directory.isAbsolute = true)
    (parameters : Parameters) :
    List.Forall₂ (EntryAnchored directory) parameters
      (anchorPaths (some directory) parameters) := by
  unfold anchorPaths
  rw [List.forall₂_map_right_iff, List.forall₂_same]
  rintro ⟨key, value⟩ -
  refine ⟨rfl, fun hpath => ?_, fun hother => ?_⟩
  · show value.PathsAnchored directory (if _ then _ else _)
    rw [if_pos ((any_contains_pathParameters key).mpr hpath)]
    exact pathsAnchored_anchorValue hplain h value
  · exact if_neg (mt (any_contains_pathParameters key).mp hother)

/-- Parameters that have been anchored are not changed by anchoring them once more. -/
theorem anchorPaths_anchorPaths (hplain : directory.IsPlain) (h : directory.isAbsolute = true)
    (parameters : Parameters) :
    anchorPaths (some directory) (anchorPaths (some directory) parameters) =
      anchorPaths (some directory) parameters := by
  simp only [anchorPaths, List.map_map]
  refine List.map_congr_left fun ⟨key, value⟩ _ => ?_
  cases hkey : key.text?.any pathParameters.contains with
  | true => simp only [Function.comp_apply, hkey, if_true, anchorValue_anchorValue hplain h]
  | false => simp only [Function.comp_apply, hkey, Bool.false_eq_true, if_false]

/-- At an absolute directory, anchoring the parameters of a call a second time changes nothing. Each
entry keeps its place and its key. Under the name of a path parameter each text that is not blank,
by itself or in a list, becomes an absolute path, the one that it denotes as seen from the
directory; everything else is left as it was. -/
theorem anchorPaths_isAnchored (directory : String)
    (habsolute : (Path.ofText directory).isAbsolute = true) (parameters : Parameters) :
    anchorPaths (some (Path.ofText directory))
        (anchorPaths (some (Path.ofText directory)) parameters) =
      anchorPaths (some (Path.ofText directory)) parameters ∧
    List.Forall₂ (EntryAnchored (Path.ofText directory)) parameters
      (anchorPaths (some (Path.ofText directory)) parameters) :=
  ⟨anchorPaths_anchorPaths (Path.isPlain_ofText directory) habsolute parameters,
    forall₂_anchorPaths (Path.isPlain_ofText directory) habsolute parameters⟩

/-- Parameters with a relative path, an absolute one, a list and a text that is no path. -/
def mixedParameters : Parameters :=
  [(.text "file_path", .text "../in//a.txt"), (.text "note", .text "b.txt"),
    (.text "file_paths", .list [.text "c.txt", .text "  ", .text "/d/./e", .integer 3]),
    (.text "output_file_path", .text "//host/x")]

/-- `anchorPaths_isAnchored` at a directory written with slashes and points to spare. -/
theorem mixedParameters_anchored :
    (Path.ofText "/srv//flows/./").isAbsolute = true ∧
    anchorPaths (some (Path.ofText "/srv//flows/./")) mixedParameters =
      [(.text "file_path", .text "/srv/flows/../in/a.txt"), (.text "note", .text "b.txt"),
        (.text "file_paths",
          .list [.text "/srv/flows/c.txt", .text "  ", .text "/d/./e", .integer 3]),
        (.text "output_file_path", .text "//host/x")] ∧
    anchorPaths (some (Path.ofText "/srv//flows/./"))
        (anchorPaths (some (Path.ofText "/srv//flows/./")) mixedParameters) =
      anchorPaths (some (Path.ofText "/srv//flows/./")) mixedParameters ∧
    List.Forall₂ (EntryAnchored (Path.ofText "/srv//flows/./")) mixedParameters
      (anchorPaths (some (Path.ofText "/srv//flows/./")) mixedParameters) :=
  ⟨by decide, by rfl, anchorPaths_isAnchored "/srv//flows/./" (by decide) mixedParameters⟩

end Runbook
