import Mathlib.Data.List.Forall2
import Runbook.Proofs.Delivery.Attempt
import Runbook.Proofs.FileTree.Repetition

/-!
# Delivering again

A delivery that is repeated finds the directories and files that it left behind the first time. As
long as the storage takes every file to its end, each of its attempts comes to the same: what was
written is written again, what was refused is refused again, at the same path. So the report is the
same, and no file and no directory changes. The reasons that failures give may be worded
differently, since the system may name another path once the directories on the way are there.

The module introduces:

* `Delivery.Attempt.Alike`: two attempts that came to the same;
* `Delivery.Repeats`: a delivery that has left everything as it was.

The main results are `Delivery.writeFile_again`, `Delivery.Delivers.again` and
`Delivery.deliver_again`.
-/

namespace Runbook.Delivery

/-- What a failure is about: the step and the path. -/
def Failure.target (f : Failure) : String × Path :=
  (f.step, f.path)

/-- What a reported error is about. -/
def WriteError.target? : WriteError → Option (String × Path)
  | .failed failure => some failure.target
  | .nullCharacter => none

/-! ## One file -/

section WriteFile

variable {tree tree' between after : FileTree} {step content : String} {path : Path}
  {error : FileTree.Error}

/-- When the tree has grown, writing a file again makes no directories and comes to the same. -/
theorem writeFile_again (hample : tree.IsAmple) (hample' : tree'.IsAmple)
    (h : (writeFile tree step path content).1.Grows tree') :
    (writeFile tree' step path content).2.map WriteError.target? =
        (writeFile tree step path content).2.map WriteError.target? ∧
      tree'.Changed
        (if (writeFile tree' step path content).2.isNone then
          FileTree.oneFile (tree'.placeOf path) (Text.Utf8.encode content)
        else FileTree.noFile)
        (fun _ => False) (writeFile tree' step path content).1 := by
  rcases tree.makeDirectories_settles path.parent with
    ⟨hnull, between, hmade, hdirectory⟩ | ⟨hnull, between, errno, refused, hmade, hbars⟩ |
    ⟨hnull, hmade⟩
  · -- The directory is there and stays, so that all depends on the file.
    have hagain (hgrown : between.Grows tree') :
        tree'.makeDirectories path.parent = (tree', none) :=
      (hgrown.hasDirectory hdirectory).makeDirectories hnull
    have hcut : between.cut? = none := by
      have hstorage := (tree.makeDirectories_changed path.parent).storage
      rw [hmade] at hstorage
      exact (hample.of_suffix hstorage).cut?_eq_none
    rcases hopen : between.openFile path with e | place
    · have hwrite : between.writeText path content = .error (e, between) :=
        FileTree.write_of_refused hopen _
      rw [writeFile_of_error hmade hwrite] at h ⊢
      have hopen' : tree'.openFile path = .error e :=
        FileTree.openFile_refused_again hdirectory hopen h
      have hwrite' : tree'.writeText path content = .error (e, tree') :=
        FileTree.write_of_refused hopen' _
      rw [writeFile_of_error (hagain h) hwrite']
      cases e <;> exact ⟨rfl, .refl tree' _⟩
    · have hwrite : between.writeText path content = .ok (between.filled place _) :=
        FileTree.write_of_whole hopen hcut _
      rw [writeFile_of_ok hmade hwrite] at h ⊢
      have hfilled := FileTree.openFile_changed hopen (Text.Utf8.encode content) fun _ => False
      have hopen' : tree'.openFile path = .ok place := FileTree.openFile_again hopen h
      have hwrite' : tree'.writeText path content = .ok (tree'.filled place _) :=
        FileTree.write_of_whole hopen' hample'.cut?_eq_none _
      rw [writeFile_of_ok (hagain (hfilled.grows.trans h)) hwrite']
      have hchanged := FileTree.openFile_changed hopen' (Text.Utf8.encode content) fun _ => False
      rw [FileTree.taken_of_none hample'.cut?_eq_none] at hchanged
      rw [← (FileTree.openFile_eq_ok hopen').2.1]
      exact ⟨rfl, hchanged⟩
  · rw [writeFile_of_barred hmade] at h ⊢
    obtain ⟨errno', refused', hmade'⟩ := (h.bars hbars).makeDirectories hnull
    rw [writeFile_of_barred hmade']
    exact ⟨rfl, .refl tree' _⟩
  · have hmade' : tree'.makeDirectories path.parent = (tree', some .nullCharacter) := by
      simp [FileTree.makeDirectories, hnull]
    rw [writeFile_of_barred hmade, writeFile_of_barred hmade']
    exact ⟨rfl, .refl tree' _⟩

end WriteFile

/-! ## Attempts -/

/-- Two attempts to write the same came to the same, but for the wording of the reason. -/
structure Attempt.Alike (a b : Attempt) : Prop where
  /-- The step is the same. -/
  step : b.step = a.step
  /-- What was captured is the same. -/
  captured : b.captured = a.captured
  /-- The path of the file is the same. -/
  path : b.path = a.path
  /-- What came in the way is the same. -/
  error : b.error.map WriteError.target? = a.error.map WriteError.target?
  /-- What was left in the file is the same. -/
  left : b.left = a.left

namespace Attempt.Alike

variable {a b : Attempt}

theorem isWritten (h : a.Alike b) : b.isWritten = a.isWritten := by
  have herror := congrArg Option.isNone h.error
  rwa [Option.isNone_map, Option.isNone_map] at herror

theorem failure? (h : a.Alike b) :
    b.failure?.map Failure.target = a.failure?.map Failure.target := by
  have hfailure (c : Attempt) :
      c.failure?.map Failure.target = (c.error.map WriteError.target?).join := by
    unfold Attempt.failure?
    rcases c.error with _ | ⟨failure⟩ | _ <;> rfl
  rw [hfailure, hfailure, h.error]

theorem error_ne_null (h : a.Alike b) (ha : a.error ≠ some .nullCharacter) :
    b.error ≠ some .nullCharacter := by
  have herror := h.error
  rintro hb
  rw [hb] at herror
  rcases hnull : a.error with _ | ⟨failure⟩ | _
  · rw [hnull] at herror; cases herror
  · rw [hnull] at herror; cases herror
  · exact ha hnull

theorem leftAt (h : a.Alike b) (tree : FileTree) : b.leftAt tree = a.leftAt tree := by
  rw [Attempt.leftAt, Attempt.leftAt, h.left, h.path]

end Attempt.Alike

section Lists

variable {w : Workflow} {tree : FileTree} {all later : List Attempt}

theorem shown_of_alike (h : List.Forall₂ Attempt.Alike all later) :
    (later.filter Attempt.isWritten).map (Attempt.shown w tree) =
      (all.filter Attempt.isWritten).map (Attempt.shown w tree) := by
  induction h with
  | nil => rfl
  | cons hab _ ih =>
    rw [List.filter_cons, List.filter_cons, hab.isWritten]
    split
    · rw [List.map_cons, List.map_cons, ih, Attempt.shown, hab.path]
      rfl
    · exact ih

theorem targets_of_alike (h : List.Forall₂ Attempt.Alike all later) :
    (later.filterMap Attempt.failure?).map Failure.target =
      (all.filterMap Attempt.failure?).map Failure.target := by
  simp only [List.map_filterMap]
  induction h with
  | nil => rfl
  | cons hab _ ih => rw [List.filterMap_cons, List.filterMap_cons, hab.failure?, ih]

theorem lastLeft_of_alike (h : List.Forall₂ Attempt.Alike all later) :
    lastLeft tree later = lastLeft tree all := by
  induction h with
  | nil => rfl
  | cons hab _ ih => rw [lastLeft, lastLeft, ih, hab.leftAt]

end Lists

/-! ## Deliveries -/

section Deliver

variable {w : Workflow} {results : Results} {step : Step} {steps : List Step} {target : String}
  {captured : Captured} {p q : Progress} {all : List Attempt}
  {result : Progress × Option WriteError}

/-- When the tree has grown, an attempt makes no directories and comes to the same. -/
theorem attempt_again {tree tree' : FileTree} (hample : tree.IsAmple) (hample' : tree'.IsAmple)
    (h : (attemptFile w step target captured tree).1.Grows tree') :
    (attempt w step target captured tree).Alike (attempt w step target captured tree') ∧
      tree'.Changed ((attempt w step target captured tree').leftAt tree') (fun _ => False)
        (attemptFile w step target captured tree').1 := by
  obtain ⟨herror, hchanged⟩ := writeFile_again hample hample' h
  -- What is left in a file that the storage takes to its end is told by the error.
  have hleft := (attempt_ends w step target captured tree).left_of_ample hample
  have hleft' := (attempt_ends w step target captured tree').left_of_ample hample'
  have hwritten : (attempt w step target captured tree').isWritten =
      (attempt w step target captured tree).isWritten := by
    have hnone := congrArg Option.isNone herror
    rwa [Option.isNone_map, Option.isNone_map] at hnone
  refine ⟨⟨rfl, rfl, rfl, herror, ?_⟩, ?_⟩
  · rw [hleft', hleft, hwritten]
    rfl
  · have hleftAt : (attempt w step target captured tree').leftAt tree' =
        if (attempt w step target captured tree').isWritten then
          FileTree.oneFile (tree'.placeOf (w.destination target))
            (Text.Utf8.encode (render step captured))
        else FileTree.noFile := by
      rw [Attempt.leftAt, hleft']
      split <;> rfl
    rw [hleftAt]
    exact hchanged

/-- A delivery that has come to its end is repeated in a tree that has grown from the one that it
left: it comes to its end, its attempts come to the same, and it makes no directories. -/
theorem Delivers.again (h : Delivers w results steps p all result) (hend : result.2 = none)
    (hample : p.tree.IsAmple) (hample' : q.tree.IsAmple) (hgrown : result.1.tree.Grows q.tree) :
    (deliverSteps w results steps q).2 = none ∧
      List.Forall₂ Attempt.Alike all (attempts w results steps q.tree) ∧
      q.tree.Changed (lastLeft q.tree (attempts w results steps q.tree)) (fun _ => False)
        (deliverSteps w results steps q).1.tree := by
  induction h generalizing q with
  | done => exact ⟨rfl, .nil, .refl q.tree _⟩
  | @idle step steps _ _ _ _ hidle htree _ _ ih =>
    obtain ⟨htree', -, hnone⟩ := deliverStep_idle (w := w) hidle q
    rw [attempts_of_idle hidle steps, deliverSteps_cons hnone, ← htree']
    exact ih hend (htree ▸ hample) (htree' ▸ hample') (htree' ▸ hgrown)
  | @attempted step steps p next _ _ target captured hitem herror htree _ hrest ih =>
    -- What the attempt has left grows into what the delivery has left, and on into this tree.
    have hleft : (attemptFile w step target captured p.tree).1.Grows q.tree :=
      (htree ▸ hrest.changed.grows).trans hgrown
    have hnext : next.tree.IsAmple := hample.of_suffix
      (htree ▸ (attemptFile_changed w step target captured p.tree).storage)
    obtain ⟨halike, hchanged⟩ := attempt_again hample hample' hleft
    have hnull := halike.error_ne_null herror
    obtain ⟨htree', -, hnone⟩ := deliverStep_attempt (w := w) hitem q
    rw [if_neg hnull] at hnone
    rw [← htree'] at hchanged
    obtain ⟨hfinished, hall, hothers⟩ :=
      ih hend hnext (hample'.of_suffix hchanged.storage) (hgrown.trans hchanged.grows)
    rw [deliverSteps_cons hnone, attempts, hitem]
    dsimp only
    rw [if_neg hnull, ← htree']
    refine ⟨hfinished, .cons halike hall, ?_⟩
    rw [lastLeft_congr hchanged.current] at hothers
    exact (hchanged.trans hothers).mono fun _ => Or.rec id id
  | broken => cases hend

/-- A delivery has left everything as another one did: the report tells of the same files, and of
failures of the same steps at the same paths, each in the same order, and the same stands at every
place. -/
structure Repeats (first second : Progress) : Prop where
  /-- The same files are reported as written. -/
  written : second.report.written = first.report.written
  /-- Failures of the same steps are reported, at the same paths. -/
  failures : second.report.failures.map Failure.target =
    first.report.failures.map Failure.target
  /-- The current directory is the same. -/
  current : second.tree.current = first.tree.current
  /-- At every place stands the same directory, or a file with the same content. -/
  places : ∀ place, second.tree.get? place = first.tree.get? place

/-- A delivery that comes to its end, and is then repeated, comes to its end again and leaves
everything as the first time, if the storage takes every file to its end. -/
theorem deliver_again (w : Workflow) (results : Results) (tree : FileTree)
    (hample : tree.IsAmple) (hend : (deliver w results tree).2 = none) :
    (deliver w results (deliver w results tree).1.tree).2 = none ∧
      Repeats (deliver w results tree).1 (deliver w results (deliver w results tree).1.tree).1 := by
  have hfirst : Delivers w results w.steps { tree := tree } (attempts w results w.steps tree)
      (deliver w results tree) := deliverSteps_delivers w results w.steps { tree := tree }
  have hreport := hfirst.report
  have hchanged := hfirst.changed
  obtain ⟨hfinished, halike, hsecond⟩ :=
    hfirst.again (q := { tree := (deliver w results tree).1.tree }) hend hample
      (hample.of_suffix hchanged.storage) (.refl _)
  have hreport' := (deliverSteps_delivers w results w.steps
    { tree := (deliver w results tree).1.tree }).report
  change (deliver w results (deliver w results tree).1.tree).2 = none at hfinished
  change (deliver w results tree).1.tree.Changed _ _
    (deliver w results (deliver w results tree).1.tree).1.tree at hsecond
  refine ⟨hfinished, ?_, ?_, hsecond.current, fun place => ?_⟩
  · have hshown : Attempt.shown w (deliver w results tree).1.tree = Attempt.shown w tree :=
      funext fun a => congrArg Path.text (displayPath_congr hchanged.current _ _)
    rw [hreport.1]
    refine hreport'.1.trans ?_
    rw [shown_of_alike halike]
    exact congrArg (fun shown => [] ++ List.map shown _) hshown
  · rw [hreport.2]
    refine (congrArg (List.map Failure.target) hreport'.2).trans ?_
    exact targets_of_alike halike
  · -- Where the second delivery writes, the first has written the same; elsewhere nothing changes.
    have hsame : lastLeft (deliver w results tree).1.tree
        (attempts w results w.steps (deliver w results tree).1.tree) =
          lastLeft tree (attempts w results w.steps tree) :=
      (lastLeft_of_alike halike).trans (lastLeft_congr hchanged.current _)
    dsimp only at hsecond hchanged
    rw [hsame] at hsecond
    cases hwritten : lastLeft tree (attempts w results w.steps tree) place with
    | some content => rw [hsecond.file hwritten, hchanged.file hwritten]
    | none => exact (hsecond.other hwritten).resolve_right fun h => h.2.2

end Deliver

/-- A workflow of three steps: the second is to write below the file of the first, on a way that
leads through a directory that is not there yet, and the third to that file by another path. -/
def tangledWorkflow : Workflow :=
  { sourcePath := some (Path.ofText "/flows/main.json")
    steps := [
      { name := "first", type := "say", enabled := true, outputFilePath := some "a.txt" },
      { name := "below", type := "say", enabled := true,
        outputFilePath := some "new/../a.txt/b/c" },
      { name := "again", type := "say", enabled := true,
        outputFilePath := some "new/../a.txt" }] }

/-- What the steps have captured. -/
def tangledResults : Results :=
  [("first", [("Result", ⟨"one", "text"⟩)]), ("below", [("Result", ⟨"two", "text"⟩)]),
    ("again", [("Result", ⟨"three", "text"⟩)])]

/-- The directory of the document. -/
def tangledTree : FileTree :=
  .ofCurrent ["flows"]

/-- Two steps are reported as written and one as a failure, and again so when the delivery is
repeated. -/
theorem deliver_again_tangled :
    tangledTree.IsAmple ∧ (deliver tangledWorkflow tangledResults tangledTree).2 = none ∧
      (deliver tangledWorkflow tangledResults tangledTree).1.report.written =
        ["a.txt", "a.txt"] ∧
      (deliver tangledWorkflow tangledResults tangledTree).1.report.failures.map Failure.target =
        [("below", Path.ofText "/flows/new/../a.txt/b")] ∧
      (deliver tangledWorkflow tangledResults
        (deliver tangledWorkflow tangledResults tangledTree).1.tree).2 = none ∧
      Repeats (deliver tangledWorkflow tangledResults tangledTree).1
        (deliver tangledWorkflow tangledResults
          (deliver tangledWorkflow tangledResults tangledTree).1.tree).1 := by
  have hend : (deliver tangledWorkflow tangledResults tangledTree).2 = none := by decide +kernel
  have hample : tangledTree.IsAmple := fun _ => List.not_mem_nil
  refine ⟨hample, hend, by decide +kernel, by decide +kernel, ?_⟩
  exact deliver_again tangledWorkflow tangledResults tangledTree hample hend

/-- The reason of a failure may be another one the second time: the first time the directory is
refused since a file stands there, the second time since the way to it leads through the file. -/
example :
    (deliver tangledWorkflow tangledResults
      (deliver tangledWorkflow tangledResults tangledTree).1.tree).1.report.failures ≠
        (deliver tangledWorkflow tangledResults tangledTree).1.report.failures := by
  decide +kernel

end Runbook.Delivery
