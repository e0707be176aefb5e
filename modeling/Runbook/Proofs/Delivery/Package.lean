import Runbook.Proofs.Delivery.Content
import Runbook.Proofs.Json.Division
import Runbook.Proofs.Path.ShortName

/-!
# Packages of delivered items

An object of a JSON output that names a file and has no package gains the short name of the file as
its package, and every other item is delivered as it is. A file is named by a string that is not
empty; but a number names one, too, as which its characters are taken, even where a string under the
second of the two members would have named the file otherwise.

The module introduces:

* `Delivery.IsText`, `Delivery.IsCharacters`: what a member names a file by, strings only, or
  strings and numbers;
* `Delivery.NamesFile`: the file that an object names;
* `Delivery.Packaged`: what an item is delivered as, whatever names a file;
* `Delivery.NumberNamesFile`: a number names the file of an item.

The main result is `Delivery.render_packages`.
-/

namespace Runbook.Delivery

/-- A string that is not empty, and its text. -/
inductive IsText : Json → String → Prop
  | string {text : String} : text ≠ "" → IsText (.string text) text

/-- A string that is not empty, and its text; or a number, and its literal. -/
inductive IsCharacters : Json → String → Prop
  | string {text : String} : text ≠ "" → IsCharacters (.string text) text
  | number {literal : String} : literal ≠ "" → IsCharacters (.number literal) literal

/-- The file that an object names, if `names` says what a member names a file by: the one under
`file`, or else the one under `file_path`. -/
inductive NamesFile (names : Json → String → Prop) (members : List (String × Json)) : String → Prop
  | file {j : Json} {name : String} :
      Json.member? "file" members = some j → names j name → NamesFile names members name
  | filePath {j : Json} {name : String} :
      (∀ other otherName, Json.member? "file" members = some other → ¬names other otherName) →
      Json.member? "file_path" members = some j → names j name → NamesFile names members name

/-- What an item is delivered as: an object that names a file and has no package gains the short
name of the file as its package, after its own members, and every other item is kept. -/
inductive Packaged (names : Json → String → Prop) : Json → Json → Prop
  | gained {members : List (String × Json)} {file package : String} :
      "package" ∉ members.map Prod.fst → NamesFile names members file →
      ShortName.IsShortName file package →
      Packaged names (.object members) (.object (members ++ [("package", .string package)]))
  | kept {item : Json} :
      (∀ members file, item = .object members → NamesFile names members file →
        "package" ∈ members.map Prod.fst) →
      Packaged names item item

/-- A number names the file of an object without a package: it stands under `file`, or under
`file_path` if there is no string under `file` that names the file. -/
inductive NumberNamesFile : Json → Prop
  | file {members : List (String × Json)} {literal : String} :
      "package" ∉ members.map Prod.fst → Json.member? "file" members = some (.number literal) →
      NumberNamesFile (.object members)
  | filePath {members : List (String × Json)} {literal : String} :
      "package" ∉ members.map Prod.fst →
      (∀ other text, Json.member? "file" members = some other → ¬IsText other text) →
      Json.member? "file_path" members = some (.number literal) →
      NumberNamesFile (.object members)

/-! ## The file that an object names -/

section Members

variable {members : List (String × Json)} {file : String}

theorem fileName?_eq_some_iff {field : String} :
    fileName? members field = some file ↔
      ∃ j, Json.member? field members = some j ∧ IsCharacters j file := by
  constructor
  · intro h
    unfold fileName? at h
    split at h
    · rename_i text hmember
      split at h
      · cases h
      · rename_i hsome
        cases h
        exact ⟨_, hmember, .string fun heq => hsome (heq ▸ rfl)⟩
    · rename_i literal hmember
      split at h
      · cases h
      · rename_i hsome
        cases h
        exact ⟨_, hmember, .number fun heq => hsome (heq ▸ rfl)⟩
    · cases h
  · rintro ⟨j, hmember, hname⟩
    rw [fileName?, hmember]
    cases hname with
    | string hsome => exact if_neg (mt String.isEmpty_iff.mp hsome)
    | number hsome => exact if_neg (mt String.isEmpty_iff.mp hsome)

/-- The file that is looked for is the one that the object names, by strings or numbers. -/
theorem findSome?_fileName?_eq_some_iff :
    fileFields.findSome? (fileName? members) = some file ↔ NamesFile IsCharacters members file := by
  rw [fileFields, List.findSome?_cons]
  cases hfirst : fileName? members "file" with
  | some first =>
    obtain ⟨j, hmember, hname⟩ := fileName?_eq_some_iff.mp hfirst
    constructor
    · rintro heq
      cases heq
      exact .file hmember hname
    · rintro (⟨hother, hotherName⟩ | ⟨hnone, -, -⟩)
      · exact hfirst.symm.trans (fileName?_eq_some_iff.mpr ⟨_, hother, hotherName⟩)
      · exact absurd hname (hnone j first hmember)
  | none =>
    have hnone (j : Json) (name : String) (hmember : Json.member? "file" members = some j) :
        ¬IsCharacters j name := by
      intro hname
      cases hfirst.symm.trans (fileName?_eq_some_iff.mpr ⟨j, hmember, hname⟩)
    rw [List.findSome?_singleton, fileName?_eq_some_iff]
    constructor
    · rintro ⟨j, hmember, hname⟩
      exact .filePath hnone hmember hname
    · rintro (⟨hmember, hname⟩ | ⟨-, hmember, hname⟩)
      · exact absurd hname (hnone _ _ hmember)
      · exact ⟨_, hmember, hname⟩

/-- Where strings only name files, an object names the same file unless a number names it. -/
theorem namesFile_iff (hpackage : "package" ∉ members.map Prod.fst)
    (hnumber : ¬NumberNamesFile (.object members)) :
    NamesFile IsCharacters members file ↔ NamesFile IsText members file := by
  have hfile (literal : String) : Json.member? "file" members ≠ some (.number literal) :=
    fun hmember => hnumber (.file hpackage hmember)
  -- Under `file` there is no number, so that only a string can name the file there.
  have hnames {j : Json} (hmember : Json.member? "file" members = some j) (name : String) :
      IsCharacters j name ↔ IsText j name := by
    constructor
    · rintro (hsome | hsome)
      · exact .string hsome
      · exact absurd hmember (hfile _)
    · rintro ⟨hsome⟩
      exact .string hsome
  constructor
  · rintro (⟨hmember, hname⟩ | ⟨hnone, hmember, hname⟩)
    · exact .file hmember ((hnames hmember _).mp hname)
    · have hnone' (other : Json) (text : String) (h : Json.member? "file" members = some other) :
          ¬IsText other text := mt (hnames h text).mpr (hnone other text h)
      cases hname with
      | string hsome => exact .filePath hnone' hmember (.string hsome)
      | number => exact absurd (.filePath hpackage hnone' hmember) hnumber
  · rintro (⟨hmember, hname⟩ | ⟨hnone, hmember, ⟨hsome⟩⟩)
    · exact .file hmember ((hnames hmember _).mpr hname)
    · refine .filePath (fun other text h => ?_) hmember (.string hsome)
      exact mt (hnames h text).mp (hnone other text h)

end Members

/-! ## Items -/

/-- An object gains a package just if it has none and names a file by a string or a number. -/
theorem packaged_withPackage (item : Json) : Packaged IsCharacters item (withPackage item) := by
  cases item with
  | object members =>
    rw [withPackage]
    split
    · rename_i hsome
      refine .kept fun others file hothers _ => ?_
      cases hothers
      obtain ⟨package, hmember⟩ := Option.isSome_iff_exists.mp hsome
      exact List.mem_map.mpr ⟨_, mem_of_lookup hmember, rfl⟩
    · rename_i hnone
      split
      · rename_i file hfile
        exact .gained (notMem_keys_of_member? hnone) (findSome?_fileName?_eq_some_iff.mp hfile)
          (ShortName.of_eq_iff.mp rfl)
      · rename_i hfile
        refine .kept fun others file hothers hnames => ?_
        cases hothers
        cases hfile.symm.trans (findSome?_fileName?_eq_some_iff.mpr hnames)
  | _ => exact .kept fun members file hmembers => by cases hmembers

/-- What an item becomes is what it is delivered as, and nothing else. -/
theorem withPackage_eq_iff {item delivered : Json} :
    withPackage item = delivered ↔ Packaged IsCharacters item delivered := by
  constructor
  · rintro rfl
    exact packaged_withPackage item
  · intro h
    cases h with
    | @gained members file package hpackage hfile hname =>
      have hnone : ¬(Json.member? packageField members).isSome = true := by
        intro hsome
        obtain ⟨other, hmember⟩ := Option.isSome_iff_exists.mp hsome
        exact hpackage (List.mem_map.mpr ⟨_, mem_of_lookup hmember, rfl⟩)
      rw [withPackage, if_neg hnone, findSome?_fileName?_eq_some_iff.mpr hfile,
        ← ShortName.of_eq_iff.mpr hname]
      rfl
    | kept hkept =>
      cases item with
      | object members =>
        rw [withPackage]
        split
        · rfl
        · rename_i hnone
          split
          · rename_i file hfile
            have hnames := findSome?_fileName?_eq_some_iff.mp hfile
            exact absurd (hkept members file rfl hnames) (notMem_keys_of_member? hnone)
          · rfl
      | _ => rfl

/-- Unless a number names the file of an item, only strings count. -/
theorem Packaged.of_not_numberNamesFile {item delivered : Json}
    (h : Packaged IsCharacters item delivered) (hnumber : ¬NumberNamesFile item) :
    Packaged IsText item delivered := by
  cases h with
  | gained hpackage hfile hname =>
    exact .gained hpackage ((namesFile_iff hpackage hnumber).mp hfile) hname
  | kept hkept =>
    refine .kept fun members file hmembers hfile => ?_
    by_contra hpackage
    subst hmembers
    exact hpackage (hkept members file rfl ((namesFile_iff hpackage hnumber).mpr hfile))

/-- The items of a JSON output come back from the file with the packages that they gain: an object
that has none and names a file, under `file` or else under `file_path`, gains the short name of the
file, and every other item is as it was. A file is named by a string that is not empty or by a
number; for every item of which no number names the file, strings alone decide. -/
theorem render_packages (step : Step) (captured : Captured) {values : List Json}
    (hformat : step.outputFormat.toLower = "json" ∨ captured.format.toLower = "json")
    (hvalues : Json.parseMany captured.value = .ok values) :
    ∃ data, Json.parse .strict (render step captured) = .ok (.object [("data", .array data)]) ∧
      List.Forall₂ (Packaged IsCharacters) (normalize values) data ∧
      List.Forall₂ (fun item delivered => ¬NumberNamesFile item → Packaged IsText item delivered)
        (normalize values) data := by
  refine ⟨(normalize values).map withPackage, ?_, ?_, ?_⟩
  · rw [render_of_parseMany hformat hvalues]
    exact parse_jsonContent (Json.wellFormed_of_parseMany hvalues)
  · rw [List.forall₂_map_right_iff]
    exact List.forall₂_same.mpr fun item _ => packaged_withPackage item
  · rw [List.forall₂_map_right_iff]
    exact List.forall₂_same.mpr fun item _ => (packaged_withPackage item).of_not_numberNamesFile

/-- A number under `file` makes a package although it is no string. -/
theorem render_packages_number :
    sampleStep.outputFormat.toLower = "json" ∧
      Json.parseMany "\x7b\"file\":12\x7d" = .ok [.object [("file", .number "12")]] ∧
      Json.parse .strict (render sampleStep ⟨"\x7b\"file\":12\x7d", "text"⟩) =
        .ok (.object [("data", .array
          [.object [("file", .number "12"), ("package", .string "12")]])]) := by
  have hformat : sampleStep.outputFormat.toLower = "json" := (isJsonFormat_iff _).mp (by decide)
  have hnumber : Json.IsNumber ['1', '2'] := by
    refine ⟨[], ['1', '2'], [], [], ⟨.inl rfl, .digits (by decide) (by decide) ?_, .none, .none⟩, rfl⟩
    exact List.forall_mem_singleton.mpr (by decide)
  have hwell : (Json.object [("file", .number "12")]).WellFormed := ⟨by decide, hnumber, trivial⟩
  have hvalues : Json.parseMany "\x7b\"file\":12\x7d" =
      .ok [.object [("file", .number "12")]] :=
    Json.parseMany_of_parse (Json.parse_render hwell none)
  obtain ⟨data, hparse, hdata, -⟩ :=
    render_packages sampleStep ⟨_, "text"⟩ (.inl hformat) hvalues
  refine ⟨hformat, hvalues, ?_⟩
  cases hdata with
  | cons hitem hrest =>
    cases hrest
    rw [hparse, ← withPackage_eq_iff.mpr hitem]
    rfl

end Runbook.Delivery
