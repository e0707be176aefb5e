import Runbook.Proofs.Delivery.Package
import Runbook.Proofs.Loop.Item

/-!
# Levels of the file that the output for an item goes to

The path that the output for an item goes to takes the short name of the item in place of the token.
A short name holds no separator, whatever stands in the item, so that the path has the separators
that stand outside the token and all items have their files on one level. The package that a
delivery adds to an item that names a file has the same name.

The module introduces:

* `Loop.IsNameOf`: what the name that takes the place of an item in a path is like.

The main result is `Loop.applyItem_keepsLevels`.
-/

namespace Runbook

namespace Loop

/-- What the name that takes the place of an item in a path is like. -/
structure IsNameOf (item name : String) : Prop where
  /-- It adds no level to the path. -/
  noSeparator : ∀ c ∈ name.toList, ShortName.isSeparator c = false
  /-- It is the last segment of the item that is not empty, without the extension. -/
  shortName : ShortName.IsShortName item name
  /-- It is empty just if the item is nothing but separators. -/
  empty_iff : name = "" ↔ ∀ c ∈ item.toList, ShortName.isSeparator c = true

/-- The short name of an item is its name in a path. -/
theorem isNameOf_shortName (item : String) : IsNameOf item (ShortName.of item) :=
  ⟨ShortName.not_isSeparator_of_mem_of, ShortName.of_eq_iff.mp rfl, ShortName.of_eq_empty_iff⟩

/-- An item is put into the path that output goes to by its short name. -/
theorem get?_putItem_outputPath (l : Loop) (item : String) {resolved : Parameters} {s : String}
    (h : resolved.get? outputPathParameter = some (.text s)) :
    (l.putItem item resolved).get? outputPathParameter =
      some (.text (putInText l.itemToken (ShortName.of item) s)) := by
  obtain ⟨key, hkey, hfound⟩ := Parameters.get?_map
    (fun key value => putInValue l.itemToken (substitute key value item) value) resolved
    outputPathParameter h
  rw [substitute_outputPath item hkey, putInValue] at hfound
  exact hfound

/-- An item adds no level to the path that its output goes to. Whatever text the resolved parameters
hold for that path, the path for every item has the separators which the text has outside the tokens
of the item, in the same order, and each token has become the short name of the item. That name is
without separators, is the last segment of the item without its extension, and is empty only where
the item is nothing but separators. A delivery names the package of the file by it, too. -/
theorem applyItem_keepsLevels (l : Loop) :
    (∀ (parameters resolved : Parameters) (results : Results) (value : Value) (s : String),
      Substitution.inEntries results parameters = .ok resolved →
      resolved.get? outputPathParameter = some value → value.text? = some s →
      ∃ outside, Text.Replaced l.itemToken.toList [] s.toList outside ∧
        ∀ item, ∃ filled t, l.applyItem parameters item results = .ok filled ∧
          filled.get? outputPathParameter = some (.text t) ∧
          Text.Replaced l.itemToken.toList (ShortName.of item).toList s.toList t.toList ∧
          ShortName.separators t.toList = ShortName.separators outside) ∧
      ∀ item, IsNameOf item (ShortName.of item) ∧
        ∀ members, "package" ∉ members.map Prod.fst →
          Delivery.NamesFile Delivery.IsCharacters members item →
          Delivery.withPackage (.object members) =
            .object (members ++ [("package", .string (ShortName.of item))]) := by
  have htoken := l.itemToken_toList_ne_nil
  refine ⟨fun parameters resolved results value s hresolved hvalue hs => ?_, fun item => ?_⟩
  · -- The parameter is a text even if it was a number that had been read.
    obtain ⟨entry, hentry, rfl⟩ := Option.map_eq_some_iff.mp hvalue
    rw [Substitution.eq_text_of_mem_inEntries hresolved (List.mem_of_find?_eq_some hentry) hs]
      at hvalue
    obtain ⟨outside, houtside⟩ := Text.exists_replaced htoken [] s.toList
    refine ⟨outside, houtside, fun item => ?_⟩
    have hfilled : l.applyItem parameters item results = .ok (l.putItem item resolved) := by
      rw [applyItem, hresolved]
      rfl
    have hreplaced : Text.Replaced l.itemToken.toList (ShortName.of item).toList s.toList
        (putInText l.itemToken (ShortName.of item) s).toList := (putInText_eq_iff htoken).mp rfl
    -- What is left outside the tokens does not depend on the item.
    have hseparators := hreplaced.filter_eq (isNameOf_shortName item).noSeparator htoken houtside
    exact ⟨_, _, hfilled, l.get?_putItem_outputPath item hvalue, hreplaced, hseparators⟩
  · refine ⟨isNameOf_shortName item, fun members hpackage hfile => ?_⟩
    exact Delivery.withPackage_eq_iff.mpr (.gained hpackage hfile (ShortName.of_eq_iff.mp rfl))

/-- An item with separators of both kinds, also at its end, a segment of points, and two points in
its last segment. -/
def mixedItem : String := "C:\\flows/..\\Load.Sales.dtsx\\/"

/-- None of the separators of that item gets into the path. -/
theorem applyItem_keepsLevels_mixed :
    (∃ filled t,
        applyItem ⟨"\x7bList.Result\x7d", "pkg"⟩
          [(.text "output_file_path", .text "out/\x7bpkg\x7d.json")] mixedItem [] = .ok filled ∧
        filled.get? outputPathParameter = some (.text t) ∧
        ShortName.separators t.toList = ['/']) ∧
      IsNameOf mixedItem "Load.Sales" ∧
      Delivery.withPackage (.object [("file", .string mixedItem)]) =
        .object [("file", .string mixedItem), ("package", .string "Load.Sales")] := by
  have hname : ShortName.of mixedItem = "Load.Sales" := by decide
  have hresolved : Substitution.inEntries []
      [(.text "output_file_path", .text "out/\x7bpkg\x7d.json")] =
        .ok [(.text "output_file_path", .text "out/\x7bpkg\x7d.json")] := by rfl
  obtain ⟨hpath, hitem⟩ := applyItem_keepsLevels ⟨"\x7bList.Result\x7d", "pkg"⟩
  obtain ⟨outside, houtside, hput⟩ := hpath _ _ [] _ _ hresolved rfl rfl
  obtain ⟨filled, t, hfilled, ht, -, hseparators⟩ := hput mixedItem
  obtain ⟨hisName, hpackage⟩ := hitem mixedItem
  rw [hname] at hisName hpackage
  refine ⟨⟨filled, t, hfilled, ht, ?_⟩, hisName, ?_⟩
  · rw [hseparators, ← houtside.replaceAll_eq (itemToken_toList_ne_nil _)]
    decide
  · exact hpackage _ (by decide) (.file rfl (.string (by decide)))

end Loop

end Runbook
