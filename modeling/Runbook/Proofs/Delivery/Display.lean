import Mathlib.Data.List.Forall2
import Runbook.Proofs.Delivery.Attempt
import Runbook.Proofs.Path.Collapse
import Runbook.Proofs.Path.Text

/-!
# How the files of a delivery are shown

The report of a delivery shows the path of each file that was written. A file beneath the directory
of the workflow is shown as seen from there, every other one by its absolute path; the directory
itself counts as well. Whatever is shown leads to the file when it is read as seen from the
directory. A directory whose path holds the null character is no directory that a file could be
beneath, even if the name with the null character is taken back by two points.

The module introduces:

* `Delivery.LiesBeneath`: a path leads to a base or beneath it;
* `Delivery.Identifies`: what is shown of a path tells which file it is.

The main result is `Delivery.deliver_identifies`.
-/

namespace Runbook.Delivery

open Runbook.Path

/-- A path leads to a base or beneath it. Nothing lies beneath a base with the null character. -/
def LiesBeneath (base path : Path) : Prop :=
  base.holdsNull = false ∧
    ∃ above names, base.CollapsesTo above ∧ path.CollapsesTo names ∧ above <+: names

/-- What is shown of a path tells which file it is, as seen from a base. -/
structure Identifies (base path : Path) (shown : String) : Prop where
  /-- What is shown leads from the base to where the path leads. -/
  same : ∃ names, path.CollapsesTo names ∧ (base.under (Path.ofText shown)).CollapsesTo names
  /-- A relative path is shown just for what lies beneath the base. -/
  relative_iff : (Path.ofText shown).isAbsolute = false ↔ LiesBeneath base path

variable {base path : Path} {w : Workflow}

/-! ## One path -/

/-- An absolute path is resolved without the current directory. -/
theorem resolve_of_isAbsolute (tree : FileTree) (h : path.isAbsolute = true) :
    tree.resolve path = ⟨.single, collapseParts path.parts⟩ := by
  show (⟨.single, collapseParts (tree.currentPath.under path).parts⟩ : Path) = _
  rw [Path.under, if_pos h]

/-- What lies beneath a base has the names of the base in front, once names are taken back. -/
theorem liesBeneath_iff (hbase : base.isAbsolute = true) (habsolute : path.isAbsolute = true) :
    LiesBeneath base path ↔
      base.holdsNull = false ∧ collapseParts base.parts <+: collapseParts path.parts := by
  refine and_congr_right fun _ => ⟨?_, fun h => ?_⟩
  · rintro ⟨above, names, habove, hnames, hprefix⟩
    obtain rfl := (collapsesTo_iff hbase).mp habove
    obtain rfl := (collapsesTo_iff habsolute).mp hnames
    exact hprefix
  · exact ⟨_, _, (collapsesTo_iff hbase).mpr rfl, (collapsesTo_iff habsolute).mpr rfl, h⟩

/-- An absolute path that is shown as it is leads where it leads, and it is not relative. -/
theorem identifies_self (hplain : path.IsPlain) (habsolute : path.isAbsolute = true)
    (h : ¬LiesBeneath base path) : Identifies base path path.text := by
  refine ⟨⟨_, (collapsesTo_iff habsolute).mpr rfl, ?_⟩, ?_⟩
  · rw [ofText_text hplain, Path.under, if_pos habsolute]
    exact (collapsesTo_iff habsolute).mpr rfl
  · rw [ofText_text hplain, habsolute]
    exact iff_of_false Bool.noConfusion h

/-- The names that lead from the base to a path beneath it lead there. -/
theorem identifies_beneath (hplain : path.IsPlain) (hbase : base.isAbsolute = true)
    (habsolute : path.isAbsolute = true) (hnull : base.holdsNull = false) {rest : List String}
    (hrest : collapseParts path.parts = collapseParts base.parts ++ rest) :
    Identifies base path (Path.text ⟨.relative, rest⟩) := by
  have hcollapses : Collapses path.parts (collapseParts base.parts ++ rest) :=
    hrest ▸ collapses_collapseParts path.parts
  have hmem : rest ⊆ collapseParts base.parts ++ rest := List.subset_append_right _ _
  have hrestPlain : IsPlain ⟨.relative, rest⟩ :=
    fun name hname => hplain name (hcollapses.subset (hmem hname))
  have hup : ".." ∉ rest := fun h => hcollapses.notMem (hmem h)
  have hbeneath : LiesBeneath base path :=
    (liesBeneath_iff hbase habsolute).mpr ⟨hnull, rest, hrest.symm⟩
  refine ⟨⟨_, ⟨habsolute, hcollapses⟩, ?_⟩, ?_⟩
  · -- The names that are shown hold no two points, so they are kept behind those of the base.
    rw [ofText_text hrestPlain]
    exact ⟨hbase, (collapses_collapseParts base.parts).append hup⟩
  · rw [ofText_text hrestPlain]
    exact iff_of_true rfl hbeneath

/-- The way a path is shown identifies the file. -/
theorem identifies_displayPath (tree : FileTree) (hbase : base.isAbsolute = true)
    (hplain : path.IsPlain) (habsolute : path.isAbsolute = true) :
    Identifies base path (displayPath tree (some base) path).text := by
  have hshown : displayPath tree (some base) path =
      if base.holdsNull then path
      else ((tree.resolve base).relativeTo? (tree.resolve path)).getD path := rfl
  rw [hshown, resolve_of_isAbsolute tree hbase, resolve_of_isAbsolute tree habsolute,
    Path.relativeTo?]
  split
  case isTrue hnull =>
    refine identifies_self hplain habsolute fun h => ?_
    cases hnull.symm.trans h.1
  case isFalse hnull =>
    split
    case isTrue hprefix =>
      obtain ⟨rest, hrest⟩ : collapseParts base.parts <+: collapseParts path.parts :=
        List.isPrefixOf_iff_prefix.mp hprefix.2
      dsimp only [Option.getD_some]
      rw [← hrest, List.drop_left]
      exact identifies_beneath hplain hbase habsolute (Bool.eq_false_iff.mpr hnull) hrest.symm
    case isFalse hother =>
      refine identifies_self hplain habsolute fun h => ?_
      obtain ⟨-, hprefix⟩ := (liesBeneath_iff hbase habsolute).mp h
      exact hother ⟨rfl, List.isPrefixOf_iff_prefix.mpr hprefix⟩

/-! ## All files of a delivery -/

/-- In a delivery for a workflow whose directory is absolute, each file that was written is shown in
the order of writing. What is shown leads from the directory to the file that the step names, and it
is a relative path just for what lies beneath the directory. -/
theorem deliver_identifies (source : String) (hsource : w.sourcePath = some (Path.ofText source))
    (habsolute : (Path.ofText source).parent.isAbsolute = true) (results : Results)
    (tree : FileTree) :
    List.Forall₂
      (fun shown a => (∃ target, a.step.outputFilePath = some target ∧
          a.path = (Path.ofText source).parent.under (Path.ofText target)) ∧
        Identifies (Path.ofText source).parent a.path shown)
      (deliver w results tree).1.report.written
      ((attempts w results w.steps tree).filter Attempt.isWritten) := by
  have hbase : w.baseDirectory = some (Path.ofText source).parent := by
    rw [Workflow.baseDirectory, hsource, Option.map_some]
  have hdelivers : Delivers w results w.steps { tree := tree } (attempts w results w.steps tree)
      (deliver w results tree) := deliverSteps_delivers w results w.steps { tree := tree }
  have hwritten : (deliver w results tree).1.report.written =
      ((attempts w results w.steps tree).filter Attempt.isWritten).map (Attempt.shown w tree) :=
    hdelivers.report.1
  rw [hwritten, List.forall₂_map_left_iff, List.forall₂_same]
  intro a ha
  obtain ⟨-, target, hitem, hpath⟩ := hdelivers.of_mem (List.mem_filter.mp ha).1
  rw [Workflow.destination, hbase] at hpath
  have hplain : a.path.IsPlain := by
    rw [hpath]
    exact (isPlain_ofText source).parent.under (isPlain_ofText target)
  have hroot : a.path.isAbsolute = true := by
    rw [hpath]
    exact isAbsolute_under habsolute _
  refine ⟨⟨target, outputFilePath_of_item hitem, hpath⟩, ?_⟩
  rw [Attempt.shown, hbase]
  exact identifies_displayPath tree habsolute hplain hroot

/-- A workflow whose steps name a file below its directory, one in a directory whose name only
begins like it, and two by their absolute paths. -/
def scatteredWorkflow : Workflow :=
  { sourcePath := some (Path.ofText "/srv//flows/./main.json")
    steps := [
      { name := "below", type := "say", enabled := true, outputFilePath := some "out/./a.txt" },
      { name := "beside", type := "say", enabled := true,
        outputFilePath := some "../flows2/b.txt" },
      { name := "around", type := "say", enabled := true,
        outputFilePath := some "/srv/flows2/../flows/c.txt" },
      { name := "double", type := "say", enabled := true,
        outputFilePath := some "//srv/flows/d.txt" }] }

/-- What the steps have captured. -/
def scatteredResults : Results :=
  ["below", "beside", "around", "double"].map fun name => (name, [("Result", ⟨"one", "text"⟩)])

/-- `deliver_identifies` for files that are shown in either way. -/
theorem deliver_scatteredWorkflow :
    (Path.ofText "/srv//flows/./main.json").parent.isAbsolute = true ∧
    (deliver scatteredWorkflow scatteredResults (.ofCurrent ["srv", "flows"])).1.report.written =
      ["out/a.txt", "/srv/flows/../flows2/b.txt", "c.txt", "d.txt"] ∧
    List.Forall₂
      (fun shown a => (∃ target, a.step.outputFilePath = some target ∧
          a.path = (Path.ofText "/srv//flows/./main.json").parent.under (Path.ofText target)) ∧
        Identifies (Path.ofText "/srv//flows/./main.json").parent a.path shown)
      (deliver scatteredWorkflow scatteredResults (.ofCurrent ["srv", "flows"])).1.report.written
      ((attempts scatteredWorkflow scatteredResults scatteredWorkflow.steps
        (.ofCurrent ["srv", "flows"])).filter Attempt.isWritten) :=
  ⟨by decide, by decide +kernel,
    deliver_identifies "/srv//flows/./main.json" rfl (by decide) scatteredResults
      (.ofCurrent ["srv", "flows"])⟩

/-- A workflow in whose directory a name with the null character is taken back. -/
def asideWorkflow : Workflow :=
  { sourcePath := some (Path.ofText "/srv/flows/a\x00/../main.json")
    steps := [
      { name := "A", type := "op", enabled := true, outputFilePath := some "/srv/flows/x.txt" }] }

/-- The directory of this workflow collapses to one that the file is beneath, and yet the file is
shown by its absolute path. -/
theorem deliver_asideWorkflow :
    (deliver asideWorkflow [("A", [("Result", ⟨"hi", "text"⟩)])]
      (.ofCurrent ["srv", "flows"])).1.report.written = ["/srv/flows/x.txt"] ∧
    (Path.ofText "/srv/flows/x.txt").isAbsolute = true ∧
    asideWorkflow.baseDirectory = some (Path.ofText "/srv/flows/a\x00/..") ∧
    (Path.ofText "/srv/flows/a\x00/..").CollapsesTo ["srv", "flows"] ∧
    (asideWorkflow.destination "/srv/flows/x.txt").CollapsesTo ["srv", "flows", "x.txt"] := by
  refine ⟨by decide +kernel, by decide, by decide +kernel, ⟨by decide, ?_⟩, ⟨by decide +kernel, ?_⟩⟩
  · exact collapses_iff.mpr (by decide +kernel)
  · exact collapses_iff.mpr (by decide +kernel)

end Runbook.Delivery
