import Runbook.Proofs.FileTree.Change

/-!
# Names of two points

As seen from the root directory, a name of two points takes back the name before it, and with no
name before it it has no effect. In whatever order names are taken back, those that remain are the
same, and they are the names on the path once it is resolved.

The module introduces:

* `Path.Collapses`: the names that remain of others in the end;
* `Path.CollapsesTo`: the names that remain of an absolute path.

The main results are `Path.collapses_iff` and, for resolved paths, `Path.resolve_resolve`.
-/

namespace Runbook.Path

/-- Names collapse to others, of which none is two points. -/
inductive Collapses : List String → List String → Prop
  /-- Without a name of two points all names remain. -/
  | done {names : List String} : ".." ∉ names → Collapses names names
  /-- Two points take back the name before them. -/
  | back {before after names : List String} {name : String} :
      name ≠ ".." → Collapses (before ++ after) names →
      Collapses (before ++ name :: ".." :: after) names
  /-- With no name before them two points have no effect. -/
  | top {after names : List String} : Collapses after names → Collapses (".." :: after) names

/-- A path starts from the root directory and its names collapse to others. Only names are compared:
two slashes at the beginning count as one, as they do when a path is resolved. -/
def CollapsesTo (p : Path) (names : List String) : Prop :=
  p.isAbsolute = true ∧ Collapses p.parts names

variable {before after parts names : List String} {name : String}

/-! ## What remains -/

/-- No two points remain. -/
theorem Collapses.notMem (h : Collapses parts names) : ".." ∉ names := by
  induction h with
  | done h => exact h
  | back _ _ ih => exact ih
  | top _ ih => exact ih

/-- All names that remain were there. -/
theorem Collapses.subset (h : Collapses parts names) : names ⊆ parts := by
  induction h with
  | done _ => exact List.Subset.refl _
  | @back before after _ _ _ _ ih =>
    intro kept hkept
    rcases List.mem_append.mp (ih hkept) with hmem | hmem
    · exact List.mem_append_left _ hmem
    · exact List.mem_append_right _ (List.mem_cons_of_mem _ (List.mem_cons_of_mem _ hmem))
  | top _ ih => exact fun kept hkept => List.mem_cons_of_mem _ (ih hkept)

/-! ## Collapsing from left to right -/

/-- Further names are collapsed after those before. -/
theorem collapseParts_append (before after : List String) :
    collapseParts (before ++ after) = FileTree.placeFrom (collapseParts before) after :=
  FileTree.placeFrom_append [] before after

/-- A name and the two points behind it leave nothing. -/
theorem collapseParts_back (hname : name ≠ "..") :
    collapseParts (before ++ name :: ".." :: after) = collapseParts (before ++ after) := by
  have hback (start : List String) :
      FileTree.placeFrom start (name :: ".." :: after) = FileTree.placeFrom start after := by
    simp [FileTree.placeFrom, hname]
  rw [collapseParts_append, collapseParts_append, hback]

/-- Every way to take back names comes to what collapsing from left to right comes to. -/
theorem Collapses.eq_collapseParts (h : Collapses parts names) : names = collapseParts parts := by
  induction h with
  | done h => exact (FileTree.placeFrom_of_notMem h []).symm
  | back hname _ ih => exact ih.trans (collapseParts_back hname).symm
  | top _ ih => exact ih

/-- Names collapse in the end. -/
theorem collapses_collapseParts (parts : List String) : Collapses parts (collapseParts parts) := by
  -- Each step takes away the first name of two points, so the induction is on the length.
  induction hlength : parts.length using Nat.strongRecOn generalizing parts with
  | ind length ih =>
    subst hlength
    by_cases hmem : ".." ∈ parts
    · obtain ⟨before, after, rfl, hfirst⟩ := List.eq_append_cons_of_mem hmem
      rcases List.eq_nil_or_concat before with rfl | ⟨init, name, rfl⟩
      · exact .top (ih after.length (by simp) after rfl)
      · have hname : name ≠ ".." := fun heq => hfirst (by simp [heq])
        have hshorter : (init ++ after).length < (init.concat name ++ ".." :: after).length := by
          simp only [List.length_append, List.length_concat, List.length_cons]
          omega
        rw [List.concat_eq_append, List.append_assoc, List.singleton_append,
          collapseParts_back hname]
        exact .back hname (ih _ hshorter (init ++ after) rfl)
    · have hkept : collapseParts parts = parts :=
        (FileTree.placeFrom_of_notMem hmem []).trans (List.nil_append parts)
      rw [hkept]
      exact .done hmem

/-- The names that remain are those that collapsing from left to right leaves. -/
theorem collapses_iff : Collapses parts names ↔ names = collapseParts parts :=
  ⟨Collapses.eq_collapseParts, fun h => h ▸ collapses_collapseParts parts⟩

theorem collapsesTo_iff {p : Path} (h : p.isAbsolute = true) :
    p.CollapsesTo names ↔ names = collapseParts p.parts :=
  (and_iff_right h).trans collapses_iff

/-- Names without two points remain behind those that collapse. -/
theorem Collapses.append (h : Collapses before names) (hafter : ".." ∉ after) :
    Collapses (before ++ after) (names ++ after) := by
  rw [collapses_iff, collapseParts_append, ← h.eq_collapseParts]
  exact (FileTree.placeFrom_of_notMem hafter names).symm

/-! ## Resolved paths -/

/-- No two points remain where names are collapsed. -/
theorem notMem_collapseParts (parts : List String) : ".." ∉ collapseParts parts :=
  (collapses_collapseParts parts).notMem

/-- A path that is resolved stays as it is. -/
theorem resolve_resolve (current p : Path) :
    resolve current (resolve current p) = resolve current p := by
  have hkept : collapseParts (resolve current p).parts = (resolve current p).parts :=
    (Collapses.done (notMem_collapseParts _)).eq_collapseParts.symm
  -- A resolved path has a root, and so the current directory does not matter.
  show (⟨.single, collapseParts (resolve current p).parts⟩ : Path) = resolve current p
  rw [hkept]
  rfl

end Runbook.Path
