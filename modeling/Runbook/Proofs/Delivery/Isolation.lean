import Runbook.Proofs.Delivery.Attempt

/-!
# Failures stay with their steps

A directory or a file that the system refuses and a file that the storage cuts short are reported as
failures of the step, and the steps after it have their turns all the same. There is one thing that
a delivery does not get over: the null character in a path, at which it ends without a report of the
step and without attempting the others.

The module introduces:

* `Delivery.Refused`: a directory or a file that the system refuses or that is cut short, with the
  failure that tells so;
* `Delivery.ComesTo`: a delivery comes to the turn of a step;
* `Delivery.Isolates`: what becomes of each step at its turn, and of the steps after it.

The main result is `Delivery.deliver_isolates`.
-/

namespace Runbook.Delivery

/-! ## One file -/

/-- The system refuses the directory of a file or the file itself, or the storage cuts the file
short. The failure is that of the step, at the path of the directory or the file. -/
inductive Refused (tree : FileTree) (step : String) (path : Path) (content : String) :
    Failure → Prop
  | directory {between : FileTree} {errno : FileTree.Errno} {place : Option Path} :
      tree.makeDirectories path.parent = (between, some (.refused errno place)) →
      Refused tree step path content ⟨step, path.parent,
        s!"cannot create directory: {(FileTree.Error.refused errno place).message}"⟩
  | file {between left : FileTree} {errno : FileTree.Errno} {place : Option Path} :
      tree.makeDirectories path.parent = (between, none) →
      between.writeText path content = .error (.refused errno place, left) →
      Refused tree step path content ⟨step, path, (FileTree.Error.refused errno place).message⟩

/-- The directory of a file can be made, and the file can be written. -/
def Writable (tree : FileTree) (path : Path) (content : String) : Prop :=
  ∃ between after, tree.makeDirectories path.parent = (between, none) ∧
    between.writeText path content = .ok after

section WriteFile

variable {tree : FileTree} {step content : String} {path : Path}

/-- What the system refuses is reported, and nothing else is. -/
theorem writeFile_failed_iff {failure : Failure} :
    (writeFile tree step path content).2 = some (.failed failure) ↔
      Refused tree step path content failure := by
  constructor
  -- The file has its turn only when the directory is there.
  · rcases hmade : tree.makeDirectories path.parent with ⟨between, _ | ⟨errno, place⟩ | _⟩
    · rcases hwrite : between.writeText path content with ⟨⟨errno, place⟩ | _, left⟩ | after
      · rw [writeFile_of_error hmade hwrite]
        rintro ⟨⟩
        exact .file hmade hwrite
      · rw [writeFile_of_error hmade hwrite]
        exact nofun
      · rw [writeFile_of_ok hmade hwrite]
        exact nofun
    · rw [writeFile_of_barred hmade]
      rintro ⟨⟩
      exact .directory hmade
    · rw [writeFile_of_barred hmade]
      exact nofun
  · rintro (hmade | ⟨hmade, hwrite⟩)
    · rw [writeFile_of_barred hmade]
    · rw [writeFile_of_error hmade hwrite]

/-- A file that can be written is written. -/
theorem writeFile_eq_none_iff :
    (writeFile tree step path content).2 = none ↔ Writable tree path content := by
  constructor
  · intro h
    rcases hmade : tree.makeDirectories path.parent with ⟨between, _ | error⟩
    · rcases hwrite : between.writeText path content with ⟨error, left⟩ | after
      · rw [writeFile_of_error hmade hwrite] at h
        cases h
      · exact ⟨between, after, hmade, hwrite⟩
    · rw [writeFile_of_barred hmade] at h
      cases h
  · rintro ⟨between, after, hmade, hwrite⟩
    rw [writeFile_of_ok hmade hwrite]

end WriteFile

/-! ## Turns -/

/-- A delivery comes to the turn of a step: none of the steps before has ended it, and they have
left the progress `p`. -/
structure ComesTo (w : Workflow) (results : Results) (tree : FileTree) (before : List Step)
    (step : Step) (after : List Step) (p : Progress) : Prop where
  /-- The steps before and after. -/
  steps : w.steps = before ++ step :: after
  /-- What the steps before have left. -/
  progress : deliverSteps w results before { tree := tree } = (p, none)

section Turns

variable {w : Workflow} {results : Results} {tree : FileTree} {before after : List Step}
  {step : Step} {p : Progress} {target : String} {captured : Captured}

/-- Steps are delivered after those before them, unless these end the delivery. -/
theorem deliverSteps_append (before after : List Step) (p : Progress) :
    deliverSteps w results (before ++ after) p =
      match deliverSteps w results before p with
      | (q, some e) => (q, some e)
      | (q, none) => deliverSteps w results after q := by
  -- The first of the steps before ends both deliveries, or it leaves both the same progress.
  induction before generalizing p with
  | nil => rfl
  | cons step before ih =>
    rw [List.cons_append, deliverSteps, deliverSteps]
    rcases deliverStep w results step p with ⟨q, _ | e⟩
    · exact ih q
    · rfl

/-- What has been reported stays in the report. -/
theorem report_subset (w : Workflow) (results : Results) (steps : List Step) (p : Progress) :
    p.report.failures ⊆ (deliverSteps w results steps p).1.report.failures ∧
      p.report.written ⊆ (deliverSteps w results steps p).1.report.written := by
  obtain ⟨hwritten, hfailures⟩ := (deliverSteps_delivers w results steps p).report
  rw [hwritten, hfailures]
  exact ⟨List.subset_append_left _ _, List.subset_append_left _ _⟩

/-- At the turn of a step a failure is added for what is refused of its output, and no other. -/
theorem mem_failures_deliverStep {failure : Failure} :
    failure ∈ (deliverStep w results step p).1.report.failures ↔
      failure ∈ p.report.failures ∨
        ∃ target captured, Item.of results step = .output target captured ∧
          Refused p.tree step.name (w.destination target) (render step captured) failure := by
  cases houtput : hasOutput results step with
  | false =>
    rw [(deliverStep_idle (w := w) houtput p).2.1]
    refine (or_iff_left ?_).symm
    rintro ⟨target, captured, hitem, -⟩
    cases houtput.symm.trans (hasOutput_eq_true_iff.mpr ⟨target, captured, hitem⟩)
  | true =>
    obtain ⟨target, captured, hitem⟩ := hasOutput_eq_true_iff.mp houtput
    -- The attempt at the output adds its failure, if there is one.
    have hfailure : failure ∈ (attempt w step target captured p.tree).failure?.toList ↔
        Refused p.tree step.name (w.destination target) (render step captured) failure := by
      rw [← writeFile_failed_iff, Option.mem_toList]
      change _ ↔ (attempt w step target captured p.tree).error = _
      unfold Attempt.failure?
      rcases (attempt w step target captured p.tree).error with _ | _ | _ <;> simp
    rw [(deliverStep_attempt hitem p).2.1, Report.add, List.mem_append, hfailure, hitem]
    refine or_congr_right ⟨fun hrefused => ⟨target, captured, rfl, hrefused⟩, ?_⟩
    rintro ⟨target', captured', heq, hrefused⟩
    obtain ⟨rfl, rfl⟩ := Item.output.inj heq
    exact hrefused

/-- At the turn of a step whose file can be written, the file is reported as written. -/
theorem deliverStep_of_writable (hitem : Item.of results step = .output target captured)
    (h : Writable p.tree (w.destination target) (render step captured)) :
    (displayPath p.tree w.baseDirectory (w.destination target)).text ∈
        (deliverStep w results step p).1.report.written ∧
      (deliverStep w results step p).2 = none := by
  have herror : (attempt w step target captured p.tree).error = none :=
    writeFile_eq_none_iff.mpr h
  obtain ⟨-, hreport, hresult⟩ := deliverStep_attempt (w := w) hitem p
  refine ⟨?_, hresult.trans (if_neg (herror ▸ nofun))⟩
  rw [hreport, Report.add, Attempt.isWritten, herror]
  exact List.mem_append_right _ List.mem_cons_self

/-- The turn of a step at which something is refused does not end the delivery. -/
theorem deliverStep_of_refused (hitem : Item.of results step = .output target captured)
    {failure : Failure}
    (h : Refused p.tree step.name (w.destination target) (render step captured) failure) :
    (deliverStep w results step p).2 = none := by
  have herror : (attempt w step target captured p.tree).error = some (.failed failure) :=
    writeFile_failed_iff.mpr h
  exact (deliverStep_attempt hitem p).2.2.trans (if_neg (herror ▸ nofun))

/-- At the turn of a step that meets the null character the delivery ends without a failure. -/
theorem deliverStep_of_meetsNull (hitem : Item.of results step = .output target captured)
    (h : p.tree.MeetsNull (w.destination target)) :
    (deliverStep w results step p).1.report = p.report ∧
      (deliverStep w results step p).2 = some .nullCharacter := by
  have herror : (attempt w step target captured p.tree).error = some .nullCharacter :=
    writeFile_null_iff.mpr h
  obtain ⟨-, hreport, hresult⟩ := deliverStep_attempt (w := w) hitem p
  refine ⟨?_, hresult.trans (if_pos herror)⟩
  simp [hreport, Report.add, Attempt.isWritten, Attempt.failure?, herror]

/-- The failures that are added while steps are delivered are those of what is refused at their
turns. -/
theorem exists_refused {steps : List Step} {failure : Failure}
    (h : failure ∈ (deliverSteps w results steps p).1.report.failures) :
    failure ∈ p.report.failures ∨
      ∃ before step after q target captured, steps = before ++ step :: after ∧
        deliverSteps w results before p = (q, none) ∧
        Item.of results step = .output target captured ∧
        Refused q.tree step.name (w.destination target) (render step captured) failure := by
  induction steps generalizing p with
  | nil => exact .inl h
  | cons first steps ih =>
    -- A failure that is there after the first step was there before it or is added by it.
    have hfirst : ∀ failure ∈ (deliverStep w results first p).1.report.failures,
        failure ∈ p.report.failures ∨ _ := fun failure => mem_failures_deliverStep.mp
    rw [deliverSteps] at h
    rcases hturn : deliverStep w results first p with ⟨q, _ | e⟩ <;> rw [hturn] at h hfirst
    · rcases ih h with hmem | ⟨before, step, after, q', target, captured, rfl, hbefore, hlater⟩
      · refine (hfirst failure hmem).imp id ?_
        rintro ⟨target, captured, hrefused⟩
        exact ⟨[], first, steps, p, target, captured, rfl, rfl, hrefused⟩
      · refine .inr ⟨first :: before, step, after, q', target, captured, rfl, ?_, hlater⟩
        rw [deliverSteps, hturn]
        exact hbefore
    · refine (hfirst failure h).imp id ?_
      rintro ⟨target, captured, hrefused⟩
      exact ⟨[], first, steps, p, target, captured, rfl, rfl, hrefused⟩

namespace ComesTo

/-- From the turn of a step the delivery goes on with that step. -/
theorem deliver_eq (h : ComesTo w results tree before step after p) :
    deliver w results tree = deliverSteps w results (step :: after) p := by
  rw [deliver, h.steps, deliverSteps_append, h.progress]

/-- The steps after have their turns if the step does not end the delivery. -/
theorem goes_on (h : ComesTo w results tree before step after p)
    (hstep : (deliverStep w results step p).2 = none) :
    deliver w results tree = deliverSteps w results after (deliverStep w results step p).1 :=
  h.deliver_eq.trans (deliverSteps_cons hstep after)

/-- The delivery ends with a step that ends it. -/
theorem ends (h : ComesTo w results tree before step after p) {e : WriteError}
    (hstep : (deliverStep w results step p).2 = some e) :
    deliver w results tree = deliverStep w results step p := by
  rw [h.deliver_eq, deliverSteps]
  generalize deliverStep w results step p = result at hstep
  obtain ⟨q, e?⟩ := result
  obtain rfl : e? = some e := hstep
  rfl

end ComesTo

end Turns

/-! ## The delivery -/

/-- What becomes of the steps of a delivery, each at its turn. -/
structure Isolates (w : Workflow) (results : Results) (tree : FileTree) : Prop where
  /-- The delivery ends early just by the null character in the path of an output. -/
  ended : (deliver w results tree).2 ≠ none ↔
    ∃ before step after p target captured, ComesTo w results tree before step after p ∧
      Item.of results step = .output target captured ∧ p.tree.MeetsNull (w.destination target)
  /-- It comes to its end if the null character is in no path of an output. -/
  returns : (∀ step ∈ w.steps, ∀ target captured, Item.of results step = .output target captured →
      (w.destination target).holdsNull = false) → (deliver w results tree).2 = none
  /-- If it comes to its end, it comes to the turn of every step. -/
  turns : (deliver w results tree).2 = none → ∀ {before : List Step} {step : Step}
    {after : List Step}, w.steps = before ++ step :: after →
      ∃ p, ComesTo w results tree before step after p
  /-- A step without an output is passed over. -/
  idle : ∀ {before : List Step} {step : Step} {after : List Step} {p : Progress},
    ComesTo w results tree before step after p → hasOutput results step = false →
    deliver w results tree = deliverSteps w results after (deliverStep w results step p).1
  /-- At the turn of a step with an output, its file can be written, or it is refused, or the null
  character is met. -/
  outcome : ∀ {before : List Step} {step : Step} {after : List Step} {p : Progress}
    {target : String} {captured : Captured}, ComesTo w results tree before step after p →
    Item.of results step = .output target captured →
      Writable p.tree (w.destination target) (render step captured) ∨
      (∃ failure, Refused p.tree step.name (w.destination target) (render step captured) failure) ∨
      p.tree.MeetsNull (w.destination target)
  /-- A file that can be written is reported as written, and the delivery goes on. -/
  written : ∀ {before : List Step} {step : Step} {after : List Step} {p : Progress}
    {target : String} {captured : Captured}, ComesTo w results tree before step after p →
    Item.of results step = .output target captured →
    Writable p.tree (w.destination target) (render step captured) →
      (displayPath tree w.baseDirectory (w.destination target)).text ∈
          (deliver w results tree).1.report.written ∧
        deliver w results tree = deliverSteps w results after (deliverStep w results step p).1
  /-- What is refused is reported as a failure of the step, and the delivery goes on. -/
  refused : ∀ {before : List Step} {step : Step} {after : List Step} {p : Progress}
    {target : String} {captured : Captured} {failure : Failure},
    ComesTo w results tree before step after p → Item.of results step = .output target captured →
    Refused p.tree step.name (w.destination target) (render step captured) failure →
      failure ∈ (deliver w results tree).1.report.failures ∧
        deliver w results tree = deliverSteps w results after (deliverStep w results step p).1
  /-- No other failures are reported. -/
  failures : ∀ failure ∈ (deliver w results tree).1.report.failures,
    ∃ before step after p target captured, ComesTo w results tree before step after p ∧
      Item.of results step = .output target captured ∧
      Refused p.tree step.name (w.destination target) (render step captured) failure
  /-- Where the null character is met, the delivery ends with that step and the report as it is. -/
  broken : ∀ {before : List Step} {step : Step} {after : List Step} {p : Progress}
    {target : String} {captured : Captured}, ComesTo w results tree before step after p →
    Item.of results step = .output target captured →
    p.tree.MeetsNull (w.destination target) →
      deliver w results tree = deliverStep w results step p ∧
        (deliver w results tree).1.report = p.report ∧
        (deliver w results tree).2 = some .nullCharacter

section Isolation

variable {w : Workflow} {results : Results} {tree : FileTree} {before after : List Step}
  {step : Step} {p : Progress} {target : String} {captured : Captured}

/-- A delivery ends early just when it comes to the turn of a step whose path meets the null
character. -/
theorem deliver_ne_none_iff :
    (deliver w results tree).2 ≠ none ↔
      ∃ before step after p target captured, ComesTo w results tree before step after p ∧
        Item.of results step = .output target captured ∧
        p.tree.MeetsNull (w.destination target) := by
  rw [deliver_null_iff]
  constructor
  · rintro ⟨before, step, after, target, captured, hsteps, hbefore, hitem, hmeets⟩
    exact ⟨before, step, after, _, target, captured, ⟨hsteps, Prod.ext rfl hbefore⟩, hitem, hmeets⟩
  · rintro ⟨before, step, after, p, target, captured, hcomes, hitem, hmeets⟩
    refine ⟨before, step, after, target, captured, hcomes.steps, ?_, hitem, ?_⟩ <;>
      rw [hcomes.progress]
    exact hmeets

/-- What is reported at the turn of a step that does not end the delivery stays in the report. -/
theorem ComesTo.report_subset (h : ComesTo w results tree before step after p)
    (hstep : (deliverStep w results step p).2 = none) :
    (deliverStep w results step p).1.report.failures ⊆ (deliver w results tree).1.report.failures ∧
      (deliverStep w results step p).1.report.written ⊆
        (deliver w results tree).1.report.written := by
  rw [h.goes_on hstep]
  exact Delivery.report_subset w results after _

/-- The current directory stays where it is up to the turn of every step. -/
theorem ComesTo.current_eq (h : ComesTo w results tree before step after p) :
    p.tree.current = tree.current := by
  have hchanged := (deliverSteps_delivers w results before { tree := tree }).changed
  rw [h.progress] at hchanged
  exact hchanged.current

/-- If a delivery comes to its end, the steps before any step do not end it. -/
theorem exists_comesTo (hend : (deliver w results tree).2 = none)
    (hsteps : w.steps = before ++ step :: after) :
    ∃ p, ComesTo w results tree before step after p := by
  rcases hbefore : deliverSteps w results before { tree := tree } with ⟨p, _ | e⟩
  · exact ⟨p, hsteps, hbefore⟩
  · rw [deliver, hsteps, deliverSteps_append, hbefore] at hend
    cases hend

end Isolation

/-- A delivery isolates failures: what is refused is reported at the turn of its step, and nothing
but the null character in a path keeps the steps after from having their turns. -/
theorem deliver_isolates (w : Workflow) (results : Results) (tree : FileTree) :
    Isolates w results tree where
  ended := deliver_ne_none_iff
  returns hplain := by
    refine Classical.not_not.mp fun hended => ?_
    obtain ⟨before, step, after, p, target, captured, hcomes, hitem, hmeets⟩ :=
      deliver_ne_none_iff.mp hended
    have hmem : step ∈ w.steps := hcomes.steps ▸ List.mem_append_right _ List.mem_cons_self
    -- Only a path that holds the null character meets it.
    cases (hplain step hmem target captured hitem).symm.trans hmeets.holdsNull
  turns hend _ _ _ hsteps := exists_comesTo hend hsteps
  idle hcomes hidle := hcomes.goes_on (deliverStep_idle hidle _).2.2
  outcome {_ step _ p target captured} _ _ := by
    cases herror : (writeFile p.tree step.name (w.destination target) (render step captured)).2 with
    | none => exact .inl (writeFile_eq_none_iff.mp herror)
    | some e =>
      cases e with
      | failed failure => exact .inr (.inl ⟨failure, writeFile_failed_iff.mp herror⟩)
      | nullCharacter => exact .inr (.inr (writeFile_null_iff.mp herror))
  written hcomes hitem hwritable := by
    obtain ⟨hshown, hstep⟩ := deliverStep_of_writable hitem hwritable
    -- The path is shown as seen from the current directory, which has not changed.
    rw [displayPath_congr hcomes.current_eq] at hshown
    exact ⟨(hcomes.report_subset hstep).2 hshown, hcomes.goes_on hstep⟩
  refused hcomes hitem hrefused := by
    have hstep := deliverStep_of_refused hitem hrefused
    exact ⟨(hcomes.report_subset hstep).1
      (mem_failures_deliverStep.mpr (.inr ⟨_, _, hitem, hrefused⟩)), hcomes.goes_on hstep⟩
  failures failure hfailure := by
    rcases exists_refused hfailure with
      hnone | ⟨before, step, after, p, target, captured, hsteps, hbefore, hrefused⟩
    · cases hnone
    · exact ⟨before, step, after, p, target, captured, ⟨hsteps, hbefore⟩, hrefused⟩
  broken hcomes hitem hmeets := by
    obtain ⟨hreport, hstep⟩ := deliverStep_of_meetsNull hitem hmeets
    rw [hcomes.ends hstep]
    exact ⟨rfl, hreport, hstep⟩

/-- A workflow of four steps: the second is to write below the file of the first, and the name of
the third holds the null character. -/
def brokenWorkflow : Workflow :=
  { sourcePath := some (Path.ofText "/flows/main.json")
    steps := [
      { name := "first", type := "say", enabled := true, outputFilePath := some "first.txt" },
      { name := "below", type := "say", enabled := true, outputFilePath := some "first.txt/b" },
      { name := "null", type := "say", enabled := true, outputFilePath := some "a\x00b" },
      { name := "last", type := "say", enabled := true, outputFilePath := some "last.txt" }] }

/-- What the steps have captured. -/
def brokenResults : Results :=
  [("first", [("Result", ⟨"one", "text"⟩)]), ("below", [("Result", ⟨"two", "text"⟩)]),
    ("null", [("Result", ⟨"three", "text"⟩)]), ("last", [("Result", ⟨"four", "text"⟩)])]

/-- The second step is reported as a failure and does not keep the third from having its turn. The
third ends the delivery without a failure, and the file of the last step is not written. -/
theorem deliver_isolates_broken :
    (deliver brokenWorkflow brokenResults (.ofCurrent ["flows"])).2 = some .nullCharacter ∧
      (deliver brokenWorkflow brokenResults (.ofCurrent ["flows"])).1.report.written =
        ["first.txt"] ∧
      (deliver brokenWorkflow brokenResults (.ofCurrent ["flows"])).1.report.failures.map
        Failure.step = ["below"] ∧
      (deliver brokenWorkflow brokenResults (.ofCurrent ["flows"])).1.tree.get?
        ["flows", "last.txt"] = none ∧
      Isolates brokenWorkflow brokenResults (.ofCurrent ["flows"]) := by
  refine ⟨by decide +kernel, by decide +kernel, by decide +kernel, by decide +kernel, ?_⟩
  exact deliver_isolates brokenWorkflow brokenResults (.ofCurrent ["flows"])

end Runbook.Delivery
