import Runbook.Delivery.Write
import Runbook.Proofs.FileTree.Change

/-!
# Attempts of a delivery

A delivery attempts to write the output of every step that has one and names a file for it. Each
attempt ends in a written file or in a failure, and the report has an entry for it; the null
character in a path ends the delivery. An attempt that fails has left its file alone, unless the
storage has cut the file short once it was opened.

The module introduces:

* `Delivery.Tells`: what is told of an error that comes of writing a file;
* `Delivery.Attempt`: what is to be written of a step, where, what came in the way, and what was
  left in the file;
* `Delivery.Attempt.Ends`: the ways in which an attempt ends;
* `Delivery.attempts`: the attempts of a delivery in order;
* `Delivery.lastLeft`: what the attempts have left at a place in the end.

The main result is `Delivery.deliverSteps_delivers`: a delivery goes by its attempts. From it
`Delivery.Delivers.changed` and `Delivery.Delivers.report` tell the files and the report, and
`Delivery.deliver_null_iff` tells when the null character ends a delivery.
-/

namespace Runbook.Delivery

/-! ## One file -/

section WriteFile

variable {tree tree' between after : FileTree} {step content : String} {path : Path}
  {error : FileTree.Error}

/-- A directory that is not made is reported by its path, unless that holds the null character. -/
theorem writeFile_of_barred (h : tree.makeDirectories path.parent = (between, some error)) :
    writeFile tree step path content =
      (between, some (match error with
        | .nullCharacter => .nullCharacter
        | e => .failed ⟨step, path.parent, s!"cannot create directory: {e.message}"⟩)) := by
  cases error <;> simp [writeFile, h]

/-- A file is written in its directory. -/
theorem writeFile_of_ok (hmade : tree.makeDirectories path.parent = (between, none))
    (hwrite : between.writeText path content = .ok after) :
    writeFile tree step path content = (after, none) := by
  simp [writeFile, hmade, hwrite]

/-- A file that is not written is reported by its path, unless that holds the null character. -/
theorem writeFile_of_error (hmade : tree.makeDirectories path.parent = (between, none))
    (hwrite : between.writeText path content = .error (error, after)) :
    writeFile tree step path content =
      (after, some (match error with
        | .nullCharacter => .nullCharacter
        | e => .failed ⟨step, path, e.message⟩)) := by
  cases error <;> simp [writeFile, hmade, hwrite]

/-- What is told of an error that comes of writing a file for a step. A failure is that of the step,
and it is about the file if the system does not tell a path. -/
inductive Tells (step : String) (path : Path) : Option FileTree.Error → Option WriteError → Prop
  | written : Tells step path none none
  | nullCharacter : Tells step path (some .nullCharacter) (some .nullCharacter)
  | failed {errno : FileTree.Errno} {refused : Option Path} {failure : Failure}
      (hstep : failure.step = step)
      (hpathless : refused = none →
        failure = ⟨step, path, (FileTree.Error.refused errno none).message⟩) :
      Tells step path (some (.refused errno refused)) (some (.failed failure))

/-- Writing a file delivers its content, and tells what comes in the way of that. -/
theorem writeFile_delivers (tree : FileTree) (step : String) (path : Path) (content : String) :
    (writeFile tree step path content).1 = (tree.deliverText path content).1 ∧
      Tells step path (tree.deliverText path content).2 (writeFile tree step path content).2 := by
  unfold FileTree.deliverText
  rcases hmade : tree.makeDirectories path.parent with ⟨between, _ | e⟩
  · rcases hwrite : between.writeText path content with ⟨e, after⟩ | after
    · rw [writeFile_of_error hmade hwrite]
      refine ⟨by simp only [hwrite], ?_⟩
      simp only [hwrite]
      cases e with
      | nullCharacter => exact .nullCharacter
      | refused errno refused => exact .failed rfl (by rintro rfl; rfl)
    · rw [writeFile_of_ok hmade hwrite]
      simp only [hwrite]
      exact ⟨trivial, .written⟩
  · rw [writeFile_of_barred hmade]
    refine ⟨rfl, ?_⟩
    cases e with
    | nullCharacter => exact .nullCharacter
    | refused errno refused =>
      -- A directory that is refused is told by its path.
      refine .failed rfl fun hnone => ?_
      exact absurd (by rw [hmade, hnone]) (FileTree.makeDirectories_ne_pathless errno)

/-- Writing a file changes the files as delivering its content does. -/
theorem writeFile_tree (tree : FileTree) (step : String) (path : Path) (content : String) :
    (writeFile tree step path content).1 = (tree.deliverText path content).1 :=
  (writeFile_delivers tree step path content).1

theorem writeFile_tells (tree : FileTree) (step : String) (path : Path) (content : String) :
    Tells step path (tree.deliverText path content).2 (writeFile tree step path content).2 :=
  (writeFile_delivers tree step path content).2

theorem writeFile_null_iff :
    (writeFile tree step path content).2 = some .nullCharacter ↔ tree.MeetsNull path := by
  rw [← FileTree.deliverText_null_iff (s := content)]
  have htells := writeFile_tells tree step path content
  generalize (tree.deliverText path content).2 = e at htells ⊢
  generalize (writeFile tree step path content).2 = found at htells ⊢
  cases htells <;> simp

/-- Of a tree, the way a path is shown depends on the current directory alone. -/
theorem displayPath_congr (h : tree'.current = tree.current) (base : Option Path) (path : Path) :
    displayPath tree' base path = displayPath tree base path := by
  simp only [displayPath, FileTree.resolve, FileTree.currentPath, h]

end WriteFile

/-! ## Attempts -/

/-- An attempt to write the output of a step. -/
structure Attempt where
  /-- The step. -/
  step : Step
  /-- What was captured of the step. -/
  captured : Captured
  /-- The path of the file. -/
  path : Path
  /-- What came in the way. -/
  error : Option WriteError
  /-- What was left in the file, if it was opened. -/
  left : Option (List UInt8)

namespace Attempt

/-- Whether the file was written. -/
def isWritten (a : Attempt) : Bool := a.error.isNone

/-- The failure that is reported, if there is one. -/
def failure? (a : Attempt) : Option Failure :=
  match a.error with
  | some (.failed failure) => some failure
  | _ => none

/-- The content that the file is to have. -/
def content (a : Attempt) : List UInt8 :=
  Text.Utf8.encode (render a.step a.captured)

/-- The path as it is shown in a workflow. -/
def shown (w : Workflow) (tree : FileTree) (a : Attempt) : String :=
  (displayPath tree w.baseDirectory a.path).text

/-- What the attempt has left at a place. -/
def leftAt (tree : FileTree) (a : Attempt) : List String → Option (List UInt8) :=
  a.left.elim FileTree.noFile (FileTree.oneFile (tree.placeOf a.path))

/-- How an attempt ends, with the cuts that the storage makes. -/
inductive Ends (storage : List (Option Cut)) (a : Attempt) : Prop
  /-- The file is written to its end. -/
  | written (herror : a.error = none) (hleft : a.left = some a.content)
  /-- Something came in the way before the file was opened. -/
  | unopened (herror : a.error ≠ none) (hleft : a.left = none)
  /-- The storage has cut the file short, and that is reported by the path of the file. -/
  | cut {cut : Cut} (hcut : some cut ∈ storage)
      (herror : a.error =
        some (.failed ⟨a.step.name, a.path, (FileTree.Error.refused cut.reason none).message⟩))
      (hleft : a.left = some (a.content.take cut.kept))

section Ends

variable {storage storage' : List (Option Cut)} {a : Attempt} {octets : List UInt8}

theorem Ends.mono (h : a.Ends storage) (hsubset : storage ⊆ storage') : a.Ends storage' := by
  cases h with
  | written herror hleft => exact .written herror hleft
  | unopened herror hleft => exact .unopened herror hleft
  | cut hcut herror hleft => exact .cut (hsubset hcut) herror hleft

/-- A file that is written is written to its end. -/
theorem Ends.left_of_isWritten (h : a.Ends storage) (hwritten : a.isWritten = true) :
    a.left = some a.content := by
  have hnone : a.error = none := Option.isNone_iff_eq_none.mp hwritten
  cases h with
  | written _ hleft => exact hleft
  | unopened herror => exact absurd hnone herror
  | cut _ herror => cases hnone.symm.trans herror

/-- What is left in a file is a part of what was to be written, from its beginning. -/
theorem Ends.prefix_content (h : a.Ends storage) (hleft : a.left = some octets) :
    octets <+: a.content := by
  cases h with
  | written _ hwhole =>
    obtain rfl := Option.some.inj (hwhole.symm.trans hleft)
    exact List.prefix_rfl
  | unopened _ hnone => cases hnone.symm.trans hleft
  | cut _ _ hcut =>
    obtain rfl := Option.some.inj (hcut.symm.trans hleft)
    exact List.take_prefix _ _

/-- Where the storage cuts nothing short, an attempt leaves something in its file just if it is
written. -/
theorem Ends.left_of_ample (h : a.Ends storage) (hample : ∀ cut, some cut ∉ storage) :
    a.left = if a.isWritten then some a.content else none := by
  unfold isWritten
  cases h with
  | written herror hleft => rw [hleft, herror]; rfl
  | unopened herror hleft =>
    rw [hleft, if_neg fun hnone => herror (Option.isNone_iff_eq_none.mp hnone)]
  | cut hcut => exact absurd hcut (hample _)

end Ends

end Attempt

/-- Writing what was captured of a step to the file of a name. -/
def attemptFile (w : Workflow) (step : Step) (target : String) (captured : Captured)
    (tree : FileTree) : FileTree × Option WriteError :=
  writeFile tree step.name (w.destination target) (render step captured)

/-- The attempt to write what was captured of a step to the file of a name. -/
def attempt (w : Workflow) (step : Step) (target : String) (captured : Captured)
    (tree : FileTree) : Attempt :=
  ⟨step, captured, w.destination target, (attemptFile w step target captured tree).2,
    tree.leaves? (w.destination target) (render step captured)⟩

/-- The attempts to write the outputs of steps, one after the other, beginning with a tree. Nothing
is attempted after the null character. -/
def attempts (w : Workflow) (results : Results) : List Step → FileTree → List Attempt
  | [], _ => []
  | step :: steps, tree =>
    match Item.of results step with
    | .output target captured =>
      let a := attempt w step target captured tree
      if a.error = some .nullCharacter then [a]
      else a :: attempts w results steps (attemptFile w step target captured tree).1
    | _ => attempts w results steps tree

/-- What attempts have left at a place in the end. -/
def lastLeft (tree : FileTree) : List Attempt → List String → Option (List UInt8)
  | [] => FileTree.noFile
  | a :: rest => fun place => (lastLeft tree rest place).or (a.leftAt tree place)

section LastLeft

variable {tree : FileTree} {place : List String}

theorem lastLeft_append (before after : List Attempt) :
    lastLeft tree (before ++ after) place =
      (lastLeft tree after place).or (lastLeft tree before place) := by
  induction before with
  | nil => exact Option.or_none.symm
  | cons a before ih =>
    change (lastLeft tree (before ++ after) place).or _ = _
    rw [ih, Option.or_assoc]
    rfl

/-- Nothing is left where no attempt has opened a file. -/
theorem lastLeft_eq_none {all : List Attempt}
    (h : ∀ a ∈ all, a.left ≠ none → tree.placeOf a.path ≠ place) :
    lastLeft tree all place = none := by
  induction all with
  | nil => rfl
  | cons a rest ih =>
    obtain ⟨ha, hrest⟩ := List.forall_mem_cons.mp h
    refine Option.or_eq_none_iff.mpr ⟨ih hrest, ?_⟩
    unfold Attempt.leftAt
    cases hleft : a.left with
    | none => rfl
    | some octets => exact if_neg fun heq => ha (hleft ▸ nofun) heq.symm

/-- The last attempt that has opened the file at a place counts. -/
theorem lastLeft_of_split {before after : List Attempt} {a : Attempt} {octets : List UInt8}
    (hleft : a.left = some octets)
    (hlast : ∀ b ∈ after, b.left ≠ none → tree.placeOf b.path ≠ tree.placeOf a.path) :
    lastLeft tree (before ++ a :: after) (tree.placeOf a.path) = some octets := by
  have hown : a.leftAt tree (tree.placeOf a.path) = some octets := by
    rw [Attempt.leftAt, hleft]
    exact if_pos rfl
  rw [lastLeft_append]
  change ((lastLeft tree after _).or (a.leftAt tree _)).or _ = _
  rw [lastLeft_eq_none hlast, hown]
  rfl

/-- Places depend on the current directory alone. -/
theorem lastLeft_congr {tree' : FileTree} (h : tree'.current = tree.current)
    (all : List Attempt) : lastLeft tree' all = lastLeft tree all := by
  induction all with
  | nil => rfl
  | cons a rest ih =>
    simp only [lastLeft, ih, Attempt.leftAt, FileTree.placeOf_congr h]

end LastLeft

/-! ## What a delivery does -/

/-- Whether there is an output of a step to be written. -/
def hasOutput (results : Results) (step : Step) : Bool :=
  match Item.of results step with
  | .output .. => true
  | _ => false

/-- The report with an entry for an attempt, unless the null character came in the way. -/
def Report.add (report : Report) (w : Workflow) (tree : FileTree) (a : Attempt) : Report where
  written := report.written ++ (if a.isWritten then [a.shown w tree] else [])
  failures := report.failures ++ a.failure?.toList

/-- How a delivery of steps goes, with its attempts. -/
inductive Delivers (w : Workflow) (results : Results) :
    List Step → Progress → List Attempt → Progress × Option WriteError → Prop
  /-- All steps have had their turn. -/
  | done (p : Progress) : Delivers w results [] p [] (p, none)
  /-- A step without an output changes neither the files nor the report. -/
  | idle {step : Step} {steps : List Step} {p q : Progress} {all : List Attempt}
      {result : Progress × Option WriteError} (hidle : hasOutput results step = false)
      (htree : q.tree = p.tree) (hreport : q.report = p.report)
      (hrest : Delivers w results steps q all result) :
      Delivers w results (step :: steps) p all result
  /-- The output of a step is written, or that fails and is reported. -/
  | attempted {step : Step} {steps : List Step} {p q : Progress} {all : List Attempt}
      {result : Progress × Option WriteError} {target : String} {captured : Captured}
      (hitem : Item.of results step = .output target captured)
      (herror : (attempt w step target captured p.tree).error ≠ some .nullCharacter)
      (htree : q.tree = (attemptFile w step target captured p.tree).1)
      (hreport : q.report = p.report.add w p.tree (attempt w step target captured p.tree))
      (hrest : Delivers w results steps q all result) :
      Delivers w results (step :: steps) p (attempt w step target captured p.tree :: all) result
  /-- The null character ends the delivery. -/
  | broken {step : Step} {steps : List Step} {p q : Progress} {target : String}
      {captured : Captured} (hitem : Item.of results step = .output target captured)
      (herror : (attempt w step target captured p.tree).error = some .nullCharacter)
      (htree : q.tree = (attemptFile w step target captured p.tree).1)
      (hreport : q.report = p.report.add w p.tree (attempt w step target captured p.tree)) :
      Delivers w results (step :: steps) p [attempt w step target captured p.tree]
        (q, some .nullCharacter)

section Deliver

variable {w : Workflow} {results : Results} {step : Step} {steps : List Step} {target : String}
  {captured : Captured} {tree : FileTree} {p : Progress} {all : List Attempt}
  {result : Progress × Option WriteError}

theorem hasOutput_eq_true_iff :
    hasOutput results step = true ↔
      ∃ target captured, Item.of results step = .output target captured := by
  unfold hasOutput
  cases Item.of results step <;> simp

/-- What is delivered of a step goes to the file that the step names. -/
theorem outputFilePath_of_item (h : Item.of results step = .output target captured) :
    step.outputFilePath = some target := by
  unfold Item.of at h
  cases hpath : step.outputFilePath with
  | none => rw [hpath] at h; cases h
  | some found =>
    rw [hpath] at h
    dsimp only at h
    repeat' split at h
    all_goals cases h
    rfl

/-- What an attempt changes. -/
theorem attemptFile_changed (w : Workflow) (step : Step) (target : String) (captured : Captured)
    (tree : FileTree) :
    tree.Changed ((attempt w step target captured tree).leftAt tree)
      (tree.OnTheWay (w.destination target).parent)
      (attemptFile w step target captured tree).1 := by
  rw [attemptFile, writeFile_tree]
  exact FileTree.deliverText_changed tree (w.destination target) (render step captured)

/-- The error of an attempt is that of delivering the text, as it is told of the step. -/
theorem attempt_tells (w : Workflow) (step : Step) (target : String) (captured : Captured)
    (tree : FileTree) :
    Tells step.name (w.destination target)
      (tree.deliverText (w.destination target) (render step captured)).2
      (attempt w step target captured tree).error :=
  writeFile_tells tree step.name (w.destination target) (render step captured)

/-- How an attempt ends. -/
theorem attempt_ends (w : Workflow) (step : Step) (target : String) (captured : Captured)
    (tree : FileTree) : (attempt w step target captured tree).Ends tree.storage := by
  have htells := attempt_tells w step target captured tree
  -- What is left in the file goes with the error of the file tree, and what is told goes by that.
  rcases FileTree.deliverText_cases tree (w.destination target) (render step captured) with
    ⟨hleft, e, herror⟩ | ⟨hleft, herror⟩ | ⟨cut, hcut, hleft, herror⟩ <;> rw [herror] at htells
  · refine .unopened (fun hnone => ?_) hleft
    rw [hnone] at htells
    cases htells
  · refine .written ?_ hleft
    generalize (attempt w step target captured tree).error = told at htells ⊢
    cases htells
    rfl
  · refine .cut hcut ?_ hleft
    generalize (attempt w step target captured tree).error = told at htells ⊢
    cases htells with
    | failed _ hpathless => exact congrArg _ (congrArg _ (hpathless rfl))

/-- A step without an output is passed over. -/
theorem deliverStep_idle (h : hasOutput results step = false) (p : Progress) :
    (deliverStep w results step p).1.tree = p.tree ∧
      (deliverStep w results step p).1.report = p.report ∧
      (deliverStep w results step p).2 = none := by
  unfold hasOutput at h
  unfold deliverStep
  cases hitem : Item.of results step with
  | output target captured => rw [hitem] at h; cases h
  | _ => exact ⟨rfl, rfl, rfl⟩

/-- Nothing is attempted of a step without an output. -/
theorem attempts_of_idle (h : hasOutput results step = false) (steps : List Step)
    (tree : FileTree) :
    attempts w results (step :: steps) tree = attempts w results steps tree := by
  unfold hasOutput at h
  rw [attempts]
  cases hitem : Item.of results step with
  | output target captured => rw [hitem] at h; cases h
  | _ => rfl

/-- A step with an output is attempted, and the report has an entry for it. -/
theorem deliverStep_attempt (h : Item.of results step = .output target captured) (p : Progress) :
    (deliverStep w results step p).1.tree = (attemptFile w step target captured p.tree).1 ∧
      (deliverStep w results step p).1.report =
        p.report.add w p.tree (attempt w step target captured p.tree) ∧
      (deliverStep w results step p).2 =
        if (attempt w step target captured p.tree).error = some .nullCharacter
        then some .nullCharacter else none := by
  have hcurrent := (attemptFile_changed w step target captured p.tree).current
  unfold deliverStep attempt
  unfold attemptFile at *
  rw [h]
  dsimp only
  rcases hfile : writeFile p.tree step.name (w.destination target) (render step captured) with
    ⟨tree, _ | ⟨failure⟩ | _⟩
  · rw [hfile] at hcurrent
    refine ⟨rfl, ?_, rfl⟩
    simp [Report.add, Attempt.isWritten, Attempt.failure?, Attempt.shown,
      displayPath_congr hcurrent]
  · exact ⟨rfl, by simp [Report.add, Attempt.isWritten, Attempt.failure?], rfl⟩
  · exact ⟨rfl, by simp [Report.add, Attempt.isWritten, Attempt.failure?], rfl⟩

/-- At the turn of a step no file is changed but the one that the step names. -/
theorem content?_deliverStep (htarget : step.outputFilePath = some target) {place : List String}
    (hplace : place ≠ p.tree.placeOf (w.destination target)) :
    (deliverStep w results step p).1.tree.content? place = p.tree.content? place := by
  cases houtput : hasOutput results step with
  | false => rw [(deliverStep_idle (w := w) houtput p).1]
  | true =>
    obtain ⟨found, captured, hitem⟩ := hasOutput_eq_true_iff.mp houtput
    obtain rfl := Option.some.inj (htarget.symm.trans (outputFilePath_of_item hitem))
    rw [(deliverStep_attempt hitem p).1, (attemptFile_changed w step _ captured _).content?_eq,
      Attempt.leftAt]
    cases (attempt w step target captured p.tree).left with
    | none => exact Option.none_or
    | some octets =>
      rw [Option.elim_some, FileTree.oneFile]
      exact (congrArg (Option.or · _) (if_neg hplace)).trans Option.none_or

/-- At a turn at which a file is reported as written, that file holds the output of the step. -/
theorem read_of_deliverStep
    (h : (deliverStep w results step p).1.report.written ≠ p.report.written) :
    ∃ target captured, Item.of results step = .output target captured ∧
      (deliverStep w results step p).1.tree.read (w.destination target) =
        .ok (Text.Utf8.encode (render step captured)) := by
  cases houtput : hasOutput results step with
  | false =>
    exact absurd (congrArg Report.written (deliverStep_idle (w := w) houtput p).2.1) h
  | true =>
    obtain ⟨target, captured, hitem⟩ := hasOutput_eq_true_iff.mp houtput
    obtain ⟨htree, hreport, -⟩ := deliverStep_attempt (w := w) hitem p
    -- An attempt that failed would have added nothing to the files that are written.
    have hwritten : (attempt w step target captured p.tree).isWritten = true := by
      refine Classical.not_not.mp fun hfailed => h ?_
      rw [hreport, Report.add, if_neg hfailed, List.append_nil]
    have hleft := (attempt_ends w step target captured p.tree).left_of_isWritten hwritten
    obtain ⟨hnull, hlocate⟩ := FileTree.locate_of_leaves? hleft
    rw [← writeFile_tree p.tree step.name] at hlocate
    have hfile : (attemptFile w step target captured p.tree).1.get?
        (p.tree.placeOf (w.destination target)) =
          some (.file (Text.Utf8.encode (render step captured))) := by
      refine (attemptFile_changed w step target captured p.tree).file ?_
      rw [Attempt.leftAt, hleft]
      exact if_pos rfl
    exact ⟨target, captured, hitem, htree ▸ FileTree.read_of_locate hnull hlocate hfile⟩

/-- A step at which a delivery does not end is followed by the others. -/
theorem deliverSteps_cons (h : (deliverStep w results step p).2 = none) (steps : List Step) :
    deliverSteps w results (step :: steps) p =
      deliverSteps w results steps (deliverStep w results step p).1 := by
  rw [deliverSteps]
  rcases hstep : deliverStep w results step p with ⟨q, _ | e⟩
  · rfl
  · rw [hstep] at h
    cases h

/-- Delivering steps goes this way. -/
theorem deliverSteps_delivers (w : Workflow) (results : Results) (steps : List Step)
    (p : Progress) :
    Delivers w results steps p (attempts w results steps p.tree)
      (deliverSteps w results steps p) := by
  -- Each step leaves another progress, in which the steps after it are delivered.
  induction steps generalizing p with
  | nil => exact .done p
  | cons step steps ih =>
    rw [deliverSteps]
    cases houtput : hasOutput results step with
    | false =>
      obtain ⟨htree, hreport, herror⟩ := deliverStep_idle (w := w) houtput p
      generalize deliverStep w results step p = stepped at htree hreport herror
      obtain ⟨q, e?⟩ := stepped
      obtain rfl : e? = none := herror
      rw [attempts_of_idle houtput, ← htree]
      exact .idle houtput htree hreport (ih q)
    | true =>
      obtain ⟨target, captured, hitem⟩ := hasOutput_eq_true_iff.mp houtput
      obtain ⟨htree, hreport, herror⟩ := deliverStep_attempt (w := w) hitem p
      generalize deliverStep w results step p = stepped at htree hreport herror
      obtain ⟨q, e?⟩ := stepped
      rw [attempts, hitem]
      dsimp only at htree hreport herror ⊢
      split
      case isTrue hnull =>
        obtain rfl : e? = some .nullCharacter := herror.trans (if_pos hnull)
        exact .broken hitem hnull htree hreport
      case isFalse hnull =>
        obtain rfl : e? = none := herror.trans (if_neg hnull)
        rw [← htree]
        exact .attempted hitem hnull htree hreport (ih q)

/-- A delivery changes what its attempts have left, and it makes directories on the way to their
files. -/
theorem Delivers.changed (h : Delivers w results steps p all result) :
    p.tree.Changed (lastLeft p.tree all)
      (fun place => ∃ a ∈ all, p.tree.OnTheWay a.path.parent place) result.1.tree := by
  induction h with
  | done p => exact .refl p.tree _
  | idle _ htree _ _ ih => exact htree ▸ ih
  | @attempted step _ p q all _ target captured _ _ htree _ _ ih =>
    have hfirst := attemptFile_changed w step target captured p.tree
    rw [← htree] at hfirst
    -- Places are those of the tree at the beginning, since the current directory stays.
    rw [lastLeft_congr hfirst.current] at ih
    refine (hfirst.trans ih).mono fun place hplace => ?_
    rcases hplace with hway | ⟨a, ha, hway⟩
    · exact ⟨_, List.mem_cons_self, hway⟩
    · exact ⟨a, List.mem_cons_of_mem _ ha,
        (FileTree.onTheWay_congr hfirst.current).mp hway⟩
  | @broken step _ p q target captured _ _ htree _ =>
    have hfirst := attemptFile_changed w step target captured p.tree
    rw [← htree] at hfirst
    exact hfirst.mono fun place hway => ⟨_, List.mem_cons_self, hway⟩

/-- Every attempt ends in one of the ways, with the cuts that the storage makes from the beginning
on. -/
theorem Delivers.ends (h : Delivers w results steps p all result) {a : Attempt} (ha : a ∈ all) :
    a.Ends p.tree.storage := by
  induction h with
  | done => cases ha
  | idle _ htree _ _ ih => exact htree ▸ ih ha
  | @attempted step _ p q _ _ target captured _ _ htree _ _ ih =>
    rcases List.mem_cons.mp ha with rfl | ha
    · exact attempt_ends w step target captured p.tree
    · have hstorage := (attemptFile_changed w step target captured p.tree).storage
      rw [← htree] at hstorage
      exact (ih ha).mono hstorage.subset
  | @broken step _ p _ target captured =>
    obtain rfl := List.mem_singleton.mp ha
    exact attempt_ends w step target captured p.tree

/-- The path of a file that was opened leads to its place ever after. -/
theorem Delivers.locate (h : Delivers w results steps p all result) {a : Attempt} (ha : a ∈ all)
    {octets : List UInt8} (hleft : a.left = some octets) :
    a.path.holdsNull = false ∧
      result.1.tree.locate a.path = .ok (.entry (p.tree.placeOf a.path)) := by
  have hopened {step : Step} {target : String} {captured : Captured} {tree : FileTree}
      (hleft : (attempt w step target captured tree).left = some octets) :
      (w.destination target).holdsNull = false ∧
        (attemptFile w step target captured tree).1.locate (w.destination target) =
          .ok (.entry (tree.placeOf (w.destination target))) := by
    rw [attemptFile, writeFile_tree]
    exact FileTree.locate_of_leaves? hleft
  induction h with
  | done => cases ha
  | idle _ htree _ _ ih => exact htree ▸ ih ha
  | @attempted step _ p q _ _ target captured _ _ htree _ hrest ih =>
    rcases List.mem_cons.mp ha with rfl | ha
    · obtain ⟨hnull, hlocate⟩ := hopened hleft
      rw [← htree] at hlocate
      -- Later attempts change files and add directories, and neither moves what is there.
      exact ⟨hnull, hrest.changed.locate hlocate⟩
    · have hcurrent := (attemptFile_changed w step target captured p.tree).current
      rw [← htree] at hcurrent
      rw [← FileTree.placeOf_congr hcurrent]
      exact ih ha
  | broken _ _ htree =>
    obtain rfl := List.mem_singleton.mp ha
    exact htree ▸ hopened hleft

/-- The report of a delivery has an entry for each attempt, in order. -/
theorem Delivers.report (h : Delivers w results steps p all result) :
    result.1.report.written =
        p.report.written ++ (all.filter Attempt.isWritten).map (Attempt.shown w p.tree) ∧
      result.1.report.failures = p.report.failures ++ all.filterMap Attempt.failure? := by
  induction h with
  | done => exact ⟨(List.append_nil _).symm, (List.append_nil _).symm⟩
  | idle _ htree hreport _ ih => rwa [htree, hreport] at ih
  | @attempted step _ p q all _ target captured _ _ htree hreport _ ih =>
    have hcurrent : q.tree.current = p.tree.current :=
      htree ▸ (attemptFile_changed w step target captured p.tree).current
    have hshown : Attempt.shown w q.tree = Attempt.shown w p.tree :=
      funext fun a => congrArg Path.text (displayPath_congr hcurrent _ _)
    obtain ⟨hwritten, hfailures⟩ := ih
    rw [hreport, hshown] at hwritten
    rw [hreport] at hfailures
    refine ⟨hwritten.trans ?_, hfailures.trans ?_⟩
    · rw [Report.add, List.append_assoc, List.filter_cons]
      split <;> rfl
    · rw [Report.add, List.append_assoc, List.filterMap_cons]
      cases (attempt w step target captured p.tree).failure? <;> rfl
  | @broken step _ p q target captured _ herror _ hreport =>
    rw [hreport]
    simp [Report.add, Attempt.isWritten, Attempt.failure?, herror]

/-- A delivery that comes to its end has attempted every step with an output. -/
theorem Delivers.attempted_steps (h : Delivers w results steps p all result)
    (hend : result.2 = none) :
    all.map Attempt.step = steps.filter (hasOutput results) := by
  induction h with
  | done => rfl
  | idle hidle _ _ _ ih => rw [List.filter_cons_of_neg (by simp [hidle]), ih hend]
  | attempted hitem _ _ _ _ ih =>
    rw [List.filter_cons_of_pos (hasOutput_eq_true_iff.mpr ⟨_, _, hitem⟩), List.map_cons, ih hend]
    rfl
  | broken => cases hend

/-- Every attempt is one to write the output of a step to its file. -/
theorem Delivers.of_mem (h : Delivers w results steps p all result) {a : Attempt} (ha : a ∈ all) :
    a.step ∈ steps ∧ ∃ target, Item.of results a.step = .output target a.captured ∧
      a.path = w.destination target := by
  induction h with
  | done => cases ha
  | idle _ _ _ _ ih =>
    obtain ⟨hstep, hitem⟩ := ih ha
    exact ⟨List.mem_cons_of_mem _ hstep, hitem⟩
  | attempted hitem _ _ _ _ ih =>
    rcases List.mem_cons.mp ha with rfl | ha
    · exact ⟨List.mem_cons_self, _, hitem, rfl⟩
    · obtain ⟨hstep, hitem⟩ := ih ha
      exact ⟨List.mem_cons_of_mem _ hstep, hitem⟩
  | broken hitem =>
    obtain rfl := List.mem_singleton.mp ha
    exact ⟨List.mem_cons_self, _, hitem, rfl⟩

/-- A delivery that comes to its end has attempted each step with an output, and after it only steps
that come later. -/
theorem Delivers.exists_attempt (h : Delivers w results steps p all result) (hend : result.2 = none)
    {before after : List Step} (hsteps : steps = before ++ step :: after)
    (hitem : Item.of results step = .output target captured) :
    ∃ earlier error left later,
      all = earlier ++ (⟨step, captured, w.destination target, error, left⟩ : Attempt) :: later ∧
        ∀ b ∈ later, b.step ∈ after := by
  have houtput : hasOutput results step = true := hasOutput_eq_true_iff.mpr ⟨_, _, hitem⟩
  have hmap : all.map Attempt.step = steps.filter (hasOutput results) := h.attempted_steps hend
  rw [hsteps, List.filter_append, List.filter_cons_of_pos houtput] at hmap
  obtain ⟨earlier, rest, rfl, -, hrest⟩ := List.map_eq_append_iff.mp hmap
  obtain ⟨a, later, rfl, rfl, hlater⟩ := List.map_eq_cons_iff.mp hrest
  -- The attempt at the step is one to write its output to its file.
  obtain ⟨-, target', hitem', hpath⟩ :=
    h.of_mem (List.mem_append_right earlier List.mem_cons_self)
  obtain ⟨rfl, hcaptured⟩ := Item.output.inj (hitem.symm.trans hitem')
  refine ⟨earlier, a.error, a.left, later, by rw [hcaptured, ← hpath], fun b hb => ?_⟩
  have hmem : b.step ∈ after.filter (hasOutput results) := hlater ▸ List.mem_map_of_mem hb
  exact (List.mem_filter.mp hmem).1

/-- A failure that is reported is that of the step. -/
theorem step_of_failure? {failure : Failure}
    (h : (attempt w step target captured tree).failure? = some failure) :
    failure.step = step.name := by
  unfold Attempt.failure? at h
  split at h
  case h_1 found hfound =>
    obtain rfl := Option.some.inj h
    have htells := attempt_tells w step target captured tree
    rw [hfound] at htells
    generalize (tree.deliverText _ _).2 = e at htells
    cases htells with
    | failed hstep _ => exact hstep
  case h_2 => cases h

/-- In a delivery that comes to its end, all attempts that have not written a file are failures of
their steps. -/
theorem Delivers.failures (h : Delivers w results steps p all result) (hend : result.2 = none) :
    (all.filterMap Attempt.failure?).map Failure.step =
      (all.filter (!·.isWritten)).map fun a => a.step.name := by
  induction h with
  | done => rfl
  | idle _ _ _ _ ih => exact ih hend
  | @attempted step _ p _ _ _ target captured _ hnull _ _ _ ih =>
    rw [List.filterMap_cons, List.filter_cons]
    have hname : ∀ failure, (attempt w step target captured p.tree).failure? = some failure →
        failure.step = step.name := fun _ => step_of_failure?
    unfold Attempt.failure? Attempt.isWritten at *
    rcases herror : (attempt w step target captured p.tree).error with _ | ⟨failure⟩ | _
    · exact ih hend
    · simp only [herror] at hname
      simp only [Option.isNone_some, Bool.not_false, if_true, List.map_cons, ih hend,
        hname failure rfl]
      rfl
    · exact absurd herror hnull
  | broken => cases hend

/-- A delivery that comes to its end has an entry in its report for each attempt. -/
theorem Delivers.mem_report (h : Delivers w results steps p all result) (hend : result.2 = none)
    {a : Attempt} (ha : a ∈ all) :
    a.shown w p.tree ∈ result.1.report.written ∨
      ∃ failure ∈ result.1.report.failures, failure.step = a.step.name := by
  obtain ⟨hwritten, hfailures⟩ := h.report
  by_cases hdone : a.isWritten = true
  · refine .inl ?_
    rw [hwritten]
    exact List.mem_append_right _ (List.mem_map_of_mem (List.mem_filter.mpr ⟨ha, hdone⟩))
  · have hname : a.step.name ∈ (all.filterMap Attempt.failure?).map Failure.step := by
      rw [h.failures hend]
      refine List.mem_map_of_mem (f := fun a => a.step.name) (List.mem_filter.mpr ⟨ha, ?_⟩)
      rw [Bool.eq_false_iff.mpr hdone, Bool.not_false]
    obtain ⟨failure, hfailure, hstep⟩ := List.mem_map.mp hname
    refine .inr ⟨failure, ?_, hstep⟩
    rw [hfailures]
    exact List.mem_append_right _ hfailure

end Deliver

/-! ## The null character -/

section Null

variable {w : Workflow} {results : Results} {step : Step} {p : Progress}

/-- It is the null character in the path of an output that ends a delivery at a step. -/
theorem deliverStep_ne_none_iff :
    (deliverStep w results step p).2 ≠ none ↔
      ∃ target captured, Item.of results step = .output target captured ∧
        p.tree.MeetsNull (w.destination target) := by
  cases houtput : hasOutput results step with
  | false =>
    refine iff_of_false (fun h => h (deliverStep_idle houtput p).2.2) ?_
    rintro ⟨target, captured, hitem, -⟩
    cases houtput.symm.trans (hasOutput_eq_true_iff.mpr ⟨target, captured, hitem⟩)
  | true =>
    obtain ⟨target, captured, hitem⟩ := hasOutput_eq_true_iff.mp houtput
    have hnull : (attempt w step target captured p.tree).error = some .nullCharacter ↔
        p.tree.MeetsNull (w.destination target) := writeFile_null_iff
    rw [(deliverStep_attempt hitem p).2.2, hitem]
    by_cases h : (attempt w step target captured p.tree).error = some .nullCharacter
    · rw [if_pos h]
      exact iff_of_true nofun ⟨target, captured, rfl, hnull.mp h⟩
    · rw [if_neg h]
      refine iff_of_false (fun hne => hne rfl) ?_
      rintro ⟨target', captured', heq, hmeets⟩
      obtain ⟨rfl, rfl⟩ := Item.output.inj heq
      exact h (hnull.mpr hmeets)

/-- A delivery ends early at the first step at which it is ended. -/
theorem deliverSteps_ne_none_iff {steps : List Step} :
    (deliverSteps w results steps p).2 ≠ none ↔
      ∃ before step after, steps = before ++ step :: after ∧
        (deliverSteps w results before p).2 = none ∧
        (deliverStep w results step (deliverSteps w results before p).1).2 ≠ none := by
  induction steps generalizing p with
  | nil => exact iff_of_false (fun h => h rfl) (by simp)
  | cons first steps ih =>
    rw [deliverSteps]
    rcases hfirst : deliverStep w results first p with ⟨q, _ | e⟩
    · -- The first step does not end the delivery, and so it is one of those before.
      dsimp only
      rw [ih]
      constructor
      · rintro ⟨before, step, after, rfl, hbefore, hstep⟩
        refine ⟨first :: before, step, after, rfl, ?_⟩
        rw [deliverSteps, hfirst]
        exact ⟨hbefore, hstep⟩
      · rintro ⟨before, step, after, hsteps, hbefore, hstep⟩
        cases before with
        | nil =>
          obtain ⟨rfl, rfl⟩ := List.cons.inj hsteps
          rw [deliverSteps, hfirst] at hstep
          exact absurd rfl hstep
        | cons head before =>
          obtain ⟨rfl, rfl⟩ := List.cons.inj hsteps
          rw [deliverSteps, hfirst] at hbefore hstep
          exact ⟨before, step, after, rfl, hbefore, hstep⟩
    · refine iff_of_true nofun ⟨[], first, steps, rfl, rfl, ?_⟩
      rw [deliverSteps, hfirst]
      exact nofun

/-- A delivery is ended just by the null character in the path of an output, when it has come so far
that there is an output to be written there. -/
theorem deliver_null_iff {tree : FileTree} :
    (deliver w results tree).2 ≠ none ↔
      ∃ before step after target captured, w.steps = before ++ step :: after ∧
        (deliverSteps w results before { tree := tree }).2 = none ∧
        Item.of results step = .output target captured ∧
        (deliverSteps w results before { tree := tree }).1.tree.MeetsNull
          (w.destination target) := by
  unfold deliver
  simp only [deliverSteps_ne_none_iff, deliverStep_ne_none_iff]
  constructor
  · rintro ⟨before, step, after, hsteps, hbefore, target, captured, hitem, hmeets⟩
    exact ⟨before, step, after, target, captured, hsteps, hbefore, hitem, hmeets⟩
  · rintro ⟨before, step, after, target, captured, hsteps, hbefore, hitem, hmeets⟩
    exact ⟨before, step, after, hsteps, hbefore, target, captured, hitem, hmeets⟩

end Null

end Runbook.Delivery
