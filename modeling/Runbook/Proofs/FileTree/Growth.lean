import Runbook.FileTree

/-!
# Trees that grow

A tree grows when directories and files are added to it and files change their content: directories
stay directories and files stay files. A path of which a tree can tell where it leads, or that it
leads nowhere for another reason than that something is missing, is the same in every tree that has
grown from it.

The module introduces `FileTree.Grows`. The main results are `FileTree.Grows.walk` and
`FileTree.Grows.locate`.
-/

namespace Runbook.FileTree

/-- A tree has grown into another one. -/
structure Grows (t t' : FileTree) : Prop where
  /-- The current directory is the same. -/
  current : t'.current = t.current
  /-- Directories stay directories. -/
  directory : ∀ {place}, t.get? place = some .directory → t'.get? place = some .directory
  /-- Files stay files. -/
  file : ∀ {place content}, t.get? place = some (.file content) →
    ∃ content', t'.get? place = some (.file content')

namespace Grows

variable {t t' t'' : FileTree} {p : Path}

theorem refl (t : FileTree) : t.Grows t :=
  ⟨rfl, id, fun h => ⟨_, h⟩⟩

theorem trans (h : t.Grows t') (h' : t'.Grows t'') : t.Grows t'' := by
  refine ⟨h'.current.trans h.current, fun hplace => h'.directory (h.directory hplace), ?_⟩
  intro place content hplace
  obtain ⟨_, hplace'⟩ := h.file hplace
  exact h'.file hplace'

/-- Names lead where they led, unless something was missing on the way. -/
theorem walk (h : t.Grows t') {start names : List String}
    (hfound : t.walk start names ≠ .error .notFound) :
    t'.walk start names = t.walk start names := by
  fun_induction FileTree.walk t start names with
  | case1 start => rfl
  | case2 start names ih =>
    rw [FileTree.walk, if_pos rfl]
    exact ih hfound
  | case3 start name names hname hlength => rw [FileTree.walk, if_neg hname, if_pos hlength]
  | case4 => exact absurd rfl hfound
  | case5 start name names hname hlength content hfile =>
    obtain ⟨_, hfile'⟩ := h.file hfile
    rw [FileTree.walk, if_neg hname, if_neg hlength, hfile']
  | case6 start name names hname hlength hdirectory ih =>
    rw [FileTree.walk, if_neg hname, if_neg hlength, h.directory hdirectory]
    exact ih hfound

/-- A path leads where it led, unless something was missing on the way. -/
theorem locate (h : t.Grows t') (hfound : t.locate p ≠ .error .notFound) :
    t'.locate p = t.locate p := by
  unfold FileTree.locate at hfound ⊢
  simp only [h.current] at hfound ⊢
  split
  case isTrue => rfl
  case isFalse hlength =>
    rw [if_neg hlength] at hfound
    rw [h.walk]
    intro hwalk
    rw [hwalk] at hfound
    exact hfound rfl

end Grows

end Runbook.FileTree
