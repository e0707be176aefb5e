import Runbook.Proofs.FileTree.Change
import Runbook.Proofs.Text.Split

/-!
# Doing the same to a file tree again

Whether a directory can be made, and whether a file can be opened then, is settled the first time it
is tried: either the directory is there, or a name that is too long or a file is in its way for
good. However the tree has grown in the meantime, trying again makes no directory, succeeds or fails
as the first time, and opens the same file.

The module introduces:

* `FileTree.HasDirectory`: a path leads to a directory;
* `FileTree.Bars`: something is in the way of the directory that a path leads to.

The main results are `FileTree.makeDirectories_settles`, `FileTree.openFile_again` and
`FileTree.openFile_refused_again`.
-/

namespace Runbook

/-! ## Lengths of paths -/

/-- A path is not shorter than the path without its last name, as far as lengths matter. -/
theorem Path.isTooLong_of_parent {p : Path}
    (h : FileTree.maxPath < p.parent.text.utf8ByteSize) :
    FileTree.maxPath < p.text.utf8ByteSize := by
  obtain ⟨root, parts⟩ := p
  rcases List.eq_nil_or_concat parts with rfl | ⟨before, last, rfl⟩
  · exact h
  · rw [List.concat_eq_append] at h ⊢
    have hparent : FileTree.maxPath < (⟨root, before⟩ : Path).text.utf8ByteSize := by
      simpa [Path.parent] using h
    by_cases hne : before = []
    · -- A root and the point of the current directory are short.
      subst hne
      cases root <;> exact absurd hparent (by decide)
    · have hjoin : Text.join "/" (before ++ [last]) = Text.join "/" before ++ "/" ++ last := by
        apply String.toList_injective
        simp only [Text.join, List.map_append, List.map_cons, List.map_nil, String.toList_append,
          String.toList_ofList]
        exact Text.joinWith_concat (by simpa using hne) last.toList
      have htext : (⟨root, before ++ [last]⟩ : Path).text =
          (⟨root, before⟩ : Path).text ++ "/" ++ last := by
        simp [Path.text, hne, hjoin, String.append_assoc]
      rw [htext, String.utf8ByteSize_append, String.utf8ByteSize_append]
      omega

namespace FileTree

variable {t t' : FileTree} {p : Path}

/-! ## One directory -/

/-- A directory stands where a path leads. -/
def HasDirectory (t : FileTree) (p : Path) : Prop :=
  t.lookup p = .ok .directory

/-- Something is in the way of the directory that a path leads to. -/
inductive Bars (t : FileTree) (p : Path) : Prop
  /-- The path leads nowhere, but not because something is missing. -/
  | lost (errno : Errno) (herrno : errno ≠ .notFound) (hlocate : t.locate p = .error errno)
  /-- The path leads to a file. -/
  | file {place : List String} {content : List UInt8} (hlocate : t.locate p = .ok (.entry place))
    (hfile : t.get? place = some (.file content))

/-- A path has a directory if it leads to one by another way than a name, or by a name in another
directory. -/
theorem hasDirectory_iff :
    t.HasDirectory p ↔ (∃ place, t.locate p = .ok (.directory place)) ∨
      ∃ place, t.locate p = .ok (.entry place) ∧ t.get? place = some .directory := by
  unfold HasDirectory lookup
  cases hlocate : t.locate p with
  | error errno => simp
  | ok target =>
    cases target with
    | directory place => simp
    | entry place => cases hplace : t.get? place <;> simp [hplace]

/-- Making one directory finds that something on the way to it is missing, or that something is in
its way, or the directory is there afterwards. -/
theorem makeIfAbsent_cases (t : FileTree) (p : Path) :
    (t.locate p = .error .notFound ∧ t.makeIfAbsent p = .error .notFound) ∨
    (t.Bars p ∧ ∃ errno, errno ≠ .notFound ∧ t.makeIfAbsent p = .error errno) ∨
    ∃ t', t.makeIfAbsent p = .ok t' ∧ t'.HasDirectory p := by
  cases hlocate : t.locate p with
  | error errno =>
    by_cases herrno : errno = .notFound
    · subst herrno
      exact .inl ⟨rfl, by simp [makeIfAbsent, makeOne, hlocate]⟩
    · refine .inr (.inl ⟨.lost errno herrno hlocate, errno, herrno, ?_⟩)
      cases errno <;> simp_all [makeIfAbsent, makeOne, lookup]
  | ok target =>
    cases target with
    | directory place =>
      refine .inr (.inr ⟨t, by simp [makeIfAbsent, makeOne, lookup, hlocate], ?_⟩)
      exact hasDirectory_iff.mpr (.inl ⟨place, hlocate⟩)
    | entry place =>
      cases hplace : t.get? place with
      | none =>
        have hmade : t.makeOne p = .ok (t.put place .directory) := by
          simp [makeOne, hlocate, hplace]
        refine .inr (.inr ⟨t.put place .directory, by simp [makeIfAbsent, hmade], ?_⟩)
        refine hasDirectory_iff.mpr (.inr ⟨place, (makeOne_changed hmade).locate hlocate, ?_⟩)
        rw [get?_put (ne_nil_of_locate hlocate), if_pos rfl]
      | some node =>
        cases node with
        | file content =>
          refine .inr (.inl ⟨.file hlocate hplace, .exists, by decide, ?_⟩)
          simp [makeIfAbsent, makeOne, lookup, hlocate, hplace]
        | directory =>
          refine .inr (.inr ⟨t, by simp [makeIfAbsent, makeOne, lookup, hlocate, hplace], ?_⟩)
          exact hasDirectory_iff.mpr (.inr ⟨place, hlocate, hplace⟩)

/-- A directory that is there is left alone. -/
theorem HasDirectory.makeIfAbsent (h : t.HasDirectory p) : t.makeIfAbsent p = .ok t := by
  rcases hasDirectory_iff.mp h with ⟨place, hlocate⟩ | ⟨place, hlocate, hplace⟩ <;>
    simp_all [FileTree.makeIfAbsent, makeOne, lookup]

/-- What is in the way of a directory keeps it from being made. -/
theorem Bars.makeIfAbsent (h : t.Bars p) :
    ∃ errno, errno ≠ .notFound ∧ t.makeIfAbsent p = .error errno := by
  rcases makeIfAbsent_cases t p with ⟨hlocate, -⟩ | ⟨-, hmade⟩ | ⟨t', hmade, -⟩
  · cases h with
    | lost errno herrno hlost => exact absurd (Except.error.inj (hlost.symm.trans hlocate)) herrno
    | file hfile => cases hfile.symm.trans hlocate
  · exact hmade
  · cases h with
    | lost errno herrno hlocate =>
      cases errno <;> simp_all [FileTree.makeIfAbsent, makeOne, lookup]
    | file hlocate hfile => simp_all [FileTree.makeIfAbsent, makeOne, lookup]

theorem Grows.hasDirectory (h : t.Grows t') (hdirectory : t.HasDirectory p) :
    t'.HasDirectory p := by
  rcases hasDirectory_iff.mp hdirectory with ⟨place, hlocate⟩ | ⟨place, hlocate, hplace⟩
  · have hlocate' := (h.locate (hlocate ▸ nofun)).trans hlocate
    exact hasDirectory_iff.mpr (.inl ⟨place, hlocate'⟩)
  · have hlocate' := (h.locate (hlocate ▸ nofun)).trans hlocate
    exact hasDirectory_iff.mpr (.inr ⟨place, hlocate', h.directory hplace⟩)

theorem Grows.bars (h : t.Grows t') (hbars : t.Bars p) : t'.Bars p := by
  cases hbars with
  | lost errno herrno hlocate =>
    refine .lost errno herrno ((h.locate fun hmissing => herrno ?_).trans hlocate)
    exact Except.error.inj (hlocate.symm.trans hmissing)
  | file hlocate hfile =>
    obtain ⟨_, hfile'⟩ := h.file hfile
    exact .file ((h.locate (hlocate ▸ nofun)).trans hlocate) hfile'

/-! ## The directories on the way -/

/-- Goes on into the directory that was found. -/
def enter (t : FileTree) : Target → Except Errno (List String)
  | .directory place => .ok place
  | .entry place =>
    match t.get? place with
    | none => .error .notFound
    | some (.file _) => .error .notDirectory
    | some .directory => .ok place

/-- The place that a path starts from. -/
def startOf (t : FileTree) (p : Path) : List String :=
  if p.isAbsolute then [] else t.current

theorem walk_append (t : FileTree) (start first second : List String) :
    t.walk start (first ++ second) =
      (t.walk start first).bind fun place => t.walk place second := by
  fun_induction walk t start first with
  | case1 start => rfl
  | case2 start names ih =>
    rw [List.cons_append, walk, if_pos rfl]
    exact ih
  | case3 start name names hname hlength =>
    rw [List.cons_append, walk, if_neg hname, if_pos hlength]
    rfl
  | case4 start name names hname hlength hnone =>
    rw [List.cons_append, walk, if_neg hname, if_neg hlength, hnone]
    rfl
  | case5 start name names hname hlength content hfile =>
    rw [List.cons_append, walk, if_neg hname, if_neg hlength, hfile]
    rfl
  | case6 start name names hname hlength hdirectory ih =>
    rw [List.cons_append, walk, if_neg hname, if_neg hlength, hdirectory]
    exact ih

/-- A path is found by going through all names but the last. -/
theorem locate_concat {root : Root} {before : List String} {name : String}
    (hlength : ¬maxPath < (⟨root, before ++ [name]⟩ : Path).text.utf8ByteSize) :
    t.locate ⟨root, before ++ [name]⟩ =
      (t.walk (t.startOf ⟨root, before⟩) before).bind fun place =>
        if name = ".." then .ok (.directory place.dropLast)
        else if maxName < name.utf8ByteSize then .error .nameTooLong
        else .ok (.entry (place ++ [name])) := by
  -- Both paths start at the same place.
  have hstart : (if (⟨root, before ++ [name]⟩ : Path).isAbsolute then [] else t.current) =
      t.startOf ⟨root, before⟩ := rfl
  simp only [locate, if_neg hlength, List.dropLast_concat, List.getLast?_concat, hstart]
  cases t.walk (t.startOf ⟨root, before⟩) before <;> rfl

/-- Going through all names of a path enters the directory that the path leads to. -/
theorem walk_eq_enter (hlength : ¬maxPath < p.text.utf8ByteSize) :
    t.walk (t.startOf p) p.parts = (t.locate p).bind t.enter := by
  obtain ⟨root, names⟩ := p
  rcases List.eq_nil_or_concat names with rfl | ⟨before, name, rfl⟩
  · simp only [locate, if_neg hlength]
    rfl
  · rw [List.concat_eq_append] at hlength ⊢
    rw [locate_concat hlength]
    change t.walk (t.startOf ⟨root, before⟩) (before ++ [name]) = _
    rw [walk_append]
    cases t.walk (t.startOf ⟨root, before⟩) before with
    | error errno => rfl
    | ok place =>
      change t.walk place [name] = _
      rw [walk]
      split
      · rfl
      · split
        · rfl
        · change _ = t.enter (.entry (place ++ [name]))
          rw [enter]
          rfl

/-- What the names before the last lead to decides where a path leads. -/
theorem locate_of_parent (hne : p.parts ≠ []) (hlength : ¬maxPath < p.text.utf8ByteSize) :
    ∃ name, t.locate p = ((t.locate p.parent).bind t.enter).bind fun place =>
      if name = ".." then .ok (.directory place.dropLast)
      else if maxName < name.utf8ByteSize then .error .nameTooLong
      else .ok (.entry (place ++ [name])) := by
  have hparent := mt Path.isTooLong_of_parent hlength
  rw [← walk_eq_enter hparent]
  obtain ⟨root, names⟩ := p
  rcases List.eq_nil_or_concat names with rfl | ⟨before, name, rfl⟩
  · exact absurd rfl hne
  · rw [List.concat_eq_append] at hlength ⊢
    refine ⟨name, ?_⟩
    rw [locate_concat hlength, Path.parent, List.dropLast_concat]

/-- What is in the way of the parent is in the way. -/
theorem Bars.of_parent (h : t.Bars p.parent) : t.Bars p := by
  by_cases hne : p.parts = []
  · obtain ⟨root, names⟩ := p
    obtain rfl : names = [] := hne
    exact h
  by_cases hlength : maxPath < p.text.utf8ByteSize
  · refine .lost .nameTooLong nofun ?_
    simp only [locate, if_pos hlength]
  obtain ⟨name, hlocate⟩ := locate_of_parent (t := t) hne hlength
  cases h with
  | lost errno herrno hparent =>
    rw [hparent] at hlocate
    exact .lost errno herrno hlocate
  | file hparent hfile =>
    simp only [hparent, Except.bind, enter, hfile] at hlocate
    exact .lost .notDirectory nofun hlocate

/-- In a directory nothing is missing on the way. -/
theorem HasDirectory.locate_ne (h : t.HasDirectory p.parent) : t.locate p ≠ .error .notFound := by
  by_cases hne : p.parts = []
  · obtain ⟨root, names⟩ := p
    obtain rfl : names = [] := hne
    rcases hasDirectory_iff.mp h with ⟨place, hlocate⟩ | ⟨place, hlocate, -⟩ <;>
      exact hlocate ▸ nofun
  by_cases hlength : maxPath < p.text.utf8ByteSize
  · simp [locate, if_pos hlength]
  obtain ⟨name, hlocate⟩ := locate_of_parent (t := t) hne hlength
  have henter : ∃ place, (t.locate p.parent).bind t.enter = .ok place := by
    rcases hasDirectory_iff.mp h with ⟨place, hparent⟩ | ⟨place, hparent, hplace⟩
    · exact ⟨place, by rw [hparent]; rfl⟩
    · exact ⟨place, by simp [hparent, Except.bind, enter, hplace]⟩
  obtain ⟨place, hplace⟩ := henter
  rw [hlocate, hplace]
  change (if name = ".." then _ else _) ≠ _
  repeat' split
  all_goals exact nofun

/-! ## Making directories -/

theorem makeAll_of_ok (h : t.makeIfAbsent p = .ok t') (depth : Nat) :
    makeAll depth t p = (t', none) := by
  unfold makeAll
  rw [h]

/-- What is in the way of a directory keeps it and those on the way to it from being made. -/
theorem Bars.makeAll (h : t.Bars p) (depth : Nat) :
    ∃ failure, makeAll depth t p = (t, some failure) := by
  obtain ⟨errno, herrno, hmade⟩ := h.makeIfAbsent
  refine ⟨(errno, p), ?_⟩
  unfold FileTree.makeAll
  rw [hmade]
  cases depth <;> cases errno <;> first | rfl | exact absurd rfl herrno

/-- Making a directory and those on the way to it leaves the directory behind or finds something in
its way. -/
theorem makeAll_settles (depth : Nat) (t : FileTree) (p : Path) (hdepth : p.parts.length ≤ depth) :
    (∃ t', makeAll depth t p = (t', none) ∧ t'.HasDirectory p) ∨
      ∃ t' failure, makeAll depth t p = (t', some failure) ∧ t'.Bars p := by
  -- The path loses a name with each level of the recursion, and so it varies with the depth.
  induction depth generalizing t p with
  | zero =>
    rcases makeIfAbsent_cases t p with ⟨hlocate, -⟩ | ⟨hbars, -⟩ | ⟨t', hmade, hdirectory⟩
    · -- A path without names does not miss anything.
      obtain ⟨root, names⟩ := p
      obtain rfl : names = [] := List.length_eq_zero_iff.mp (Nat.le_zero.mp hdepth)
      simp only [locate] at hlocate
      split at hlocate <;> cases hlocate
    · obtain ⟨failure, hall⟩ := hbars.makeAll 0
      exact .inr ⟨t, failure, hall, hbars⟩
    · exact .inl ⟨t', makeAll_of_ok hmade 0, hdirectory⟩
  | succ depth ih =>
    rcases makeIfAbsent_cases t p with ⟨-, hmissing⟩ | ⟨hbars, -⟩ | ⟨t', hmade, hdirectory⟩
    · have hlength : p.parent.parts.length ≤ depth := by
        simp only [Path.parent, List.length_dropLast]
        omega
      rcases ih t p.parent hlength with
        ⟨between, hparent, hthere⟩ | ⟨between, failure, hparent, hbars⟩
      · -- The parent is there now, and so the second try does not find that something is missing.
        rcases makeIfAbsent_cases between p with
          ⟨hlocate, -⟩ | ⟨hbars, errno, -, hmade⟩ | ⟨t', hmade, hdirectory⟩
        · exact absurd hlocate hthere.locate_ne
        · refine .inr ⟨between, (errno, p), ?_, hbars⟩
          unfold makeAll
          simp only [hmissing, hparent, hmade]
        · refine .inl ⟨t', ?_, hdirectory⟩
          unfold makeAll
          simp only [hmissing, hparent, hmade]
      · refine .inr ⟨between, failure, ?_, hbars.of_parent⟩
        unfold makeAll
        simp only [hmissing, hparent]
    · obtain ⟨failure, hall⟩ := hbars.makeAll (depth + 1)
      exact .inr ⟨t, failure, hall, hbars⟩
    · exact .inl ⟨t', makeAll_of_ok hmade (depth + 1), hdirectory⟩

/-- Making directories leaves the directory behind or finds something in its way, unless the path
holds the null character. -/
theorem makeDirectories_settles (t : FileTree) (p : Path) :
    (p.holdsNull = false ∧ ∃ t', t.makeDirectories p = (t', none) ∧ t'.HasDirectory p) ∨
    (p.holdsNull = false ∧
      ∃ t' errno path, t.makeDirectories p = (t', some (.refused errno path)) ∧ t'.Bars p) ∨
    p.holdsNull = true ∧ t.makeDirectories p = (t, some .nullCharacter) := by
  unfold makeDirectories
  cases hnull : p.holdsNull with
  | true => exact .inr (.inr ⟨rfl, rfl⟩)
  | false =>
    rcases makeAll_settles p.parts.length t p (Nat.le_refl _) with
      ⟨t', hall, hdirectory⟩ | ⟨t', ⟨errno, path⟩, hall, hbars⟩ <;> rw [hall]
    · exact .inl ⟨rfl, t', rfl, hdirectory⟩
    · exact .inr (.inl ⟨rfl, t', errno, path, rfl, hbars⟩)

theorem HasDirectory.makeDirectories (h : t.HasDirectory p) (hnull : p.holdsNull = false) :
    t.makeDirectories p = (t, none) := by
  simp [FileTree.makeDirectories, hnull, makeAll_of_ok h.makeIfAbsent]

theorem Bars.makeDirectories (h : t.Bars p) (hnull : p.holdsNull = false) :
    ∃ errno path, t.makeDirectories p = (t, some (.refused errno path)) := by
  obtain ⟨⟨errno, path⟩, hall⟩ := h.makeAll p.parts.length
  exact ⟨errno, path, by simp [FileTree.makeDirectories, hnull, hall]⟩

/-! ## Opening files -/

/-- A file that was written is opened again when the tree has grown. -/
theorem openFile_again {place : List String} {content : List UInt8}
    (h : t.openFile p = .ok place) (hgrown : (t.filled place content).Grows t') :
    t'.openFile p = .ok place := by
  obtain ⟨hnull, -, hlocate, -⟩ := openFile_eq_ok h
  have hchanged := openFile_changed h content fun _ => False
  have hlocate' : t'.locate p = .ok (.entry place) := by
    have hafter := hchanged.locate hlocate
    exact (hgrown.locate (hafter ▸ nofun)).trans hafter
  obtain ⟨_, hfile⟩ := hgrown.file (hchanged.file (if_pos rfl))
  simp only [openFile, hnull, hlocate', hfile, Bool.false_eq_true, if_false]

/-- A file that was refused in a directory is refused when the tree has grown. -/
theorem openFile_refused_again {e : Error} (hparent : t.HasDirectory p.parent)
    (h : t.openFile p = .error e) (hgrown : t.Grows t') : t'.openFile p = .error e := by
  have hlocate : t'.locate p = t.locate p := hgrown.locate hparent.locate_ne
  unfold openFile at h ⊢
  rw [hlocate]
  split at h
  case isTrue hnull => rw [if_pos hnull, h]
  case isFalse hnull =>
    rw [if_neg hnull]
    split at h
    case h_1 => exact h
    case h_2 => exact h
    case h_3 place _ =>
      split at h
      case h_1 hdirectory => simpa only [hgrown.directory hdirectory] using h
      case h_2 => cases h

end FileTree

end Runbook
