import Runbook.Proofs.CommandLine.Opening
import Runbook.Proofs.Run.Turn

/-!
# The course of running a workflow

A command that runs a workflow either ends before any operation is called and leaves everything as
it was, or it runs the workflow and concludes from the run what is to be delivered, shown and said.

The module introduces:

* `CommandLine.Declines`: the ways to end before anything is run, each with its exit code;
* `CommandLine.Executes`: which workflow is run, and what the run is;
* `CommandLine.conclude`: what is concluded from a run;
* `CommandLine.SummaryChange`: what showing a summary changes in the files.

The main results are `CommandLine.declines_or_executes`, `CommandLine.Declines.ending` and
`CommandLine.Executes.outcome`, which tell the course, and `CommandLine.withSummary_cases`.
-/

namespace Runbook.CommandLine

variable {σ : Type} {catalogue : Catalogue σ} {options : Options} {tree : FileTree} {world : σ}
  {name : String} {w : Workflow} {executed : Run σ}

/-! ## Before and after the run -/

/-- Running ends before anything is run, with an exit code. -/
inductive Declines (catalogue : Catalogue σ) (options : Options) (tree : FileTree)
    (name : String) : Nat → Prop
  /-- There is no document. -/
  | absent (hopens : Opens tree name .absent) : Declines catalogue options tree name 1
  /-- The document makes no workflow. -/
  | faulty (hopens : Opens tree name .faulty) : Declines catalogue options tree name 2
  /-- Something else comes in between. -/
  | trouble {t : Trouble} (hopens : Opens tree name (.trouble t)) :
      Declines catalogue options tree name t.origin.exitCode
  /-- Only the document was to be checked. -/
  | dry {w : Workflow} (hopens : Opens tree name (.loaded w)) (hdry : options.dryRun = true) :
      Declines catalogue options tree name 0
  /-- A module of operations cannot be loaded. -/
  | operations {w : Workflow} {registry : Registry σ} {log : Log} {e : Catalogue.Error}
      (hopens : Opens tree name (.loaded w)) (hdry : options.dryRun = false)
      (hload : catalogue.loadAll {} options.modules = (registry, log, some e)) :
      Declines catalogue options tree name (Trouble.catalogue e).origin.exitCode

/-- A workflow is run with the operations of the modules, and this is the run. -/
inductive Executes (catalogue : Catalogue σ) (options : Options) (tree : FileTree) (world : σ)
    (name : String) : Workflow → Run σ → Prop
  /-- The document and the modules are loaded. -/
  | intro {w : Workflow} {registry : Registry σ} {log : Log} {executed : Run σ}
      (hopens : Opens tree name (.loaded w)) (hdry : options.dryRun = false)
      (hload : catalogue.loadAll {} options.modules = (registry, log, none))
      (hrun : w.run registry world = .ok executed) :
      Executes catalogue options tree world name w executed

/-- What is concluded from a run. -/
def conclude (options : Options) (w : Workflow) (executed : Run σ) (o : Outcome σ) : Outcome σ :=
  match executed.stop with
  | some (.broken fault) => o.announce (.integer fault)
  | some (.failed failure) =>
    withSummary options executed.summary o fun o =>
      o.fail s!"Workflow run failed: {failure.message}" 1
  | none => finish options w executed o

/-- What has come of a command up to the end of a run. -/
def Outcome.ofRun (tree : FileTree) (executed : Run σ) (log : Log) : Outcome σ :=
  { tree := tree, world := executed.world, calls := executed.calls, log := log }

/-- A workflow that is loaded has no problems. -/
theorem Opens.validate (h : Opens tree name (.loaded w)) : w.validate = .ok () := by
  cases h with
  | text hnull hread hmeans =>
    cases hmeans with
    | @workflow v w' hread hshown hdefines hends =>
      -- The path of the document plays no part in the problems.
      have hproblems : w'.problems = [] := hdefines.problems_eq_nil
      exact Workflow.validate_eq_ok_iff.mpr hproblems

/-- What is run is run without problems. -/
theorem Executes.eq_runValid (h : Executes catalogue options tree world name w executed) :
    w.validate = .ok () ∧ ∃ registry, executed = w.runValid registry world := by
  cases h with
  | @intro registry _ executed hopens _ _ hrun =>
    have hvalid := hopens.validate
    have hruns := (Workflow.run_of_validate hvalid registry world).symm.trans hrun
    exact ⟨hvalid, registry, (Except.ok.inj hruns).symm⟩

/-- Nothing is run, or a workflow is. -/
theorem declines_or_executes (catalogue : Catalogue σ) (options : Options) (tree : FileTree)
    (world : σ) (name : String) :
    (∃ code, Declines catalogue options tree name code) ∨
      ∃ w executed, Executes catalogue options tree world name w executed := by
  -- Only a workflow can be run, and only if the modules can be loaded.
  cases hopening : opening tree name with
  | absent => exact .inl ⟨_, .absent (opens_iff.mpr hopening)⟩
  | faulty => exact .inl ⟨_, .faulty (opens_iff.mpr hopening)⟩
  | trouble t => exact .inl ⟨_, .trouble (opens_iff.mpr hopening)⟩
  | loaded w =>
    have hopens : Opens tree name (.loaded w) := opens_iff.mpr hopening
    by_cases hdry : options.dryRun = true
    · exact .inl ⟨_, .dry hopens hdry⟩
    · have hdry := Bool.eq_false_iff.mpr hdry
      rcases hload : catalogue.loadAll {} options.modules with ⟨registry, log, _ | e⟩
      -- What was loaded has no problems, and so it is run.
      · have hrun := Workflow.run_of_validate hopens.validate registry world
        exact .inr ⟨w, _, .intro hopens hdry hload hrun⟩
      · exact .inl ⟨_, .operations hopens hdry hload⟩

/-- Running goes on with what is found at the path of its document. -/
theorem run_resume (catalogue : Catalogue σ) (options : Options) (tree : FileTree) (world : σ)
    (name : String) :
    ∃ log, run catalogue options name { tree := tree, world := world } =
      (opening tree name).resume Outcome.announce
        (fun o w =>
          if options.dryRun then
            (o.report (Log.info "[DRY RUN] Workflow validation successful")).exit 0
          else execute catalogue options w o)
        { tree := tree, world := world, log := log } := by
  obtain ⟨log, hlog⟩ := withDocument_resume ({ tree := tree, world := world } : Outcome σ)
    Outcome.announce name (fun path => Log.info s!"Loading workflow: {path.text}") _
  exact ⟨_, hlog⟩

/-- Where nothing is run, everything stays as it was. -/
theorem Declines.ending {code : Nat} (h : Declines catalogue options tree name code) (world : σ) :
    (run catalogue options name { tree := tree, world := world }).ending = .ok code ∧
      (run catalogue options name { tree := tree, world := world }).Idle tree world := by
  obtain ⟨log, hlog⟩ := run_resume catalogue options tree world name
  rw [hlog]
  cases h with
  | absent hopens => rw [opens_iff.mp hopens]; exact ⟨rfl, rfl, rfl, rfl⟩
  | faulty hopens => rw [opens_iff.mp hopens]; exact ⟨rfl, rfl, rfl, rfl⟩
  | trouble hopens => rw [opens_iff.mp hopens]; exact ⟨rfl, rfl, rfl, rfl⟩
  | dry hopens hdry =>
    rw [opens_iff.mp hopens]
    simp only [Opening.resume, hdry, if_true]
    exact ⟨rfl, rfl, rfl, rfl⟩
  | operations hopens hdry hload =>
    rw [opens_iff.mp hopens]
    simp only [Opening.resume, hdry, Bool.false_eq_true, if_false, execute, hload]
    exact ⟨rfl, rfl, rfl, rfl⟩

/-- Where a workflow is run, the rest is concluded from the run. -/
theorem Executes.outcome (h : Executes catalogue options tree world name w executed) :
    ∃ log, run catalogue options name { tree := tree, world := world } =
      conclude options w executed (.ofRun tree executed log) := by
  cases h with
  | @intro registry loaded executed hopens hdry hload hrun =>
    obtain ⟨log, hlog⟩ := run_resume catalogue options tree world name
    refine ⟨(log ++ loaded) ++ executed.log, hlog.trans ?_⟩
    rw [opens_iff.mp hopens]
    simp only [Opening.resume, hdry, Bool.false_eq_true, if_false, execute, hload]
    rw [show (Outcome.report _ loaded).world = world from rfl, hrun]
    rfl

/-! ## Showing the summary -/

/-- The path of the file that the summary is written to, if it is written to one. -/
def Options.summaryPath? (options : Options) : Option Path :=
  if options.summary = .hidden then none
  else (options.summaryFile.filter (!·.isEmpty)).map Path.ofText

/-- The null character is in the way of the summary's file. -/
def Options.SummaryMeetsNull (options : Options) (tree : FileTree) : Prop :=
  ∃ path, options.summaryPath? = some path ∧ tree.MeetsNull path

/-- Files have changed at most by what was written as a summary. -/
structure SummaryChange (options : Options) (tree tree' : FileTree) : Prop where
  /-- Files hold what they held, except the summary's. -/
  content : ∀ {place}, options.summaryPath?.map tree.placeOf ≠ some place →
    tree'.content? place = tree.content? place
  /-- Paths that have led somewhere lead there still. -/
  locate : ∀ {p target}, tree.locate p = .ok target → tree'.locate p = .ok target

/-- What has come of a command has changed at most by showing a summary. -/
structure Outcome.Summarises (options : Options) (o o' : Outcome σ) : Prop where
  /-- The world is the same. -/
  world : o'.world = o.world
  /-- No operation is called. -/
  calls : o'.calls = o.calls
  /-- The files have changed at most by that. -/
  files : SummaryChange options o.tree o'.tree

section Summary

variable (options : Options) (summary : Summary) (o : Outcome σ)

/-- A summary that is not hidden has a text. -/
theorem exists_text? {layout : SummaryLayout} (h : layout ≠ .hidden) :
    ∃ content, layout.text? summary = some content := by
  cases layout with
  | hidden => exact absurd rfl h
  | json => exact ⟨_, rfl⟩
  | markdown => exact ⟨_, rfl⟩

/-- A summary is shown, or it is delivered to its file. -/
theorem showSummary_cases :
    (options.summaryPath? = none ∧
      ∃ shown, showSummary options summary o = ({ o with shown := shown }, none)) ∨
    ∃ path content log, options.summaryPath? = some path ∧
      showSummary options summary o =
        ({ o with tree := (o.tree.deliverText path content).1, log := log },
          (o.tree.deliverText path content).2.map Trouble.file) := by
  unfold showSummary Options.summaryPath?
  by_cases hlayout : options.summary = .hidden
  · rw [if_pos hlayout, hlayout]
    exact .inl ⟨rfl, o.shown, rfl⟩
  · obtain ⟨content, hcontent⟩ := exists_text? summary hlayout
    rw [if_neg hlayout, hcontent]
    cases options.summaryFile.filter (!·.isEmpty) with
    | none => exact .inl ⟨rfl, _, rfl⟩
    | some file =>
      refine .inr ⟨Path.ofText file, content ++ "\n", ?_⟩
      dsimp only
      rcases o.tree.deliverText (Path.ofText file) (content ++ "\n") with ⟨tree, _ | e⟩
      · exact ⟨_, rfl, rfl⟩
      · exact ⟨_, rfl, rfl⟩

theorem SummaryChange.refl (tree : FileTree) : SummaryChange options tree tree :=
  ⟨fun _ => rfl, id⟩

/-- Delivering a summary changes no other file. -/
theorem summaryChange_deliverText {options : Options} {tree : FileTree} {path : Path}
    (hpath : options.summaryPath? = some path) (content : String) :
    SummaryChange options tree (tree.deliverText path content).1 := by
  have hchanged := tree.deliverText_changed path content
  refine ⟨fun {place} hplace => ?_, hchanged.locate⟩
  have hother : place ≠ tree.placeOf path := fun heq => hplace (by rw [hpath, heq]; rfl)
  rw [hchanged.content?_eq]
  -- Only the file of the summary is opened, also when the storage cuts it short.
  cases tree.leaves? path content with
  | none => exact Option.none_or
  | some octets => rw [Option.elim_some, FileTree.oneFile, if_neg hother, Option.none_or]

/-- A command goes on once a summary is shown, or it ends with trouble with the summary's file. -/
theorem withSummary_cases (next : Outcome σ → Outcome σ) :
    ∃ o' : Outcome σ, o.Summarises options o' ∧
      ((¬options.SummaryMeetsNull o.tree ∧ withSummary options summary o next = next o') ∨
        ∃ e, withSummary options summary o next = o'.announce (.file e) ∧
          (e = .nullCharacter ↔ options.SummaryMeetsNull o.tree)) := by
  unfold withSummary Options.SummaryMeetsNull
  rcases showSummary_cases options summary o with
    ⟨hpath, shown, hshow⟩ | ⟨path, content, log, hpath, hshow⟩
  · rw [hshow, hpath]
    refine ⟨{ o with shown := shown }, ⟨rfl, rfl, .refl options o.tree⟩, .inl ⟨?_, rfl⟩⟩
    rintro ⟨path, hpath, -⟩
    cases hpath
  -- Whether the null character is in the way is told by the error of delivering the summary.
  · have hmeets : (∃ found, options.summaryPath? = some found ∧ o.tree.MeetsNull found) ↔
        (o.tree.deliverText path content).2 = some .nullCharacter := by
      rw [FileTree.deliverText_null_iff, hpath]
      simp
    rw [hshow, hmeets]
    refine ⟨{ o with tree := (o.tree.deliverText path content).1, log := log },
      ⟨rfl, rfl, summaryChange_deliverText hpath content⟩, ?_⟩
    cases (o.tree.deliverText path content).2 with
    | none => exact .inl ⟨nofun, rfl⟩
    | some e => exact .inr ⟨e, rfl, by simp⟩

end Summary

/-! ## Conclusions -/

/-- A command ends by showing a summary, with an exit code unless there is trouble with that. -/
structure Outcome.Closes (options : Options) (o : Outcome σ) (code : Nat) (closed : Outcome σ) :
    Prop where
  /-- The exit code is 2 just if the null character is in the way of the summary's file, and it is
  not 0 if it was not to be. -/
  ending : ∃ found, closed.ending = .ok found ∧ (found = 0 → code = 0) ∧
    (found = 2 ↔ options.SummaryMeetsNull o.tree)
  /-- Nothing else has changed. -/
  summarises : o.Summarises options closed

/-- Showing a summary and then ending with an exit code. -/
theorem withSummary_closes (options : Options) (summary : Summary) (o : Outcome σ) {code : Nat}
    (hcode : code ≠ 2) {next : Outcome σ → Outcome σ}
    (hnext : ∀ o' : Outcome σ, ∃ log, next o' = (o'.report log).exit code) :
    o.Closes options code (withSummary options summary o next) := by
  obtain ⟨o', ⟨hworld, hcalls, hfiles⟩, ⟨hfree, hgoes⟩ | ⟨e, hends, hnull⟩⟩ :=
    withSummary_cases options summary o next
  · obtain ⟨log, hlog⟩ := hnext o'
    rw [hgoes, hlog]
    exact ⟨⟨code, rfl, id, iff_of_false hcode hfree⟩, hworld, hcalls, hfiles⟩
  · rw [hends]
    -- Of the errors of files, the null character leads to 2 and every other to 1.
    refine ⟨⟨(Trouble.file e).origin.exitCode, rfl, ?_, ?_⟩, hworld, hcalls, hfiles⟩
    · cases e <;> exact nofun
    · rw [← hnull]
      cases e with
      | nullCharacter => exact iff_of_true rfl rfl
      | refused errno path => exact iff_of_false nofun nofun

section Conclude

variable (options : Options) (w : Workflow) (o : Outcome σ)

/-- A run that has broken off is concluded with 2. -/
theorem conclude_of_broken {fault : Number.IntegerFault}
    (hstop : executed.stop = some (.broken fault)) :
    conclude options w executed o = o.announce (.integer fault) := by
  rw [conclude, hstop]

/-- A run that has failed is concluded with its summary and 1. -/
theorem conclude_of_failed {failure : StepFailure}
    (hstop : executed.stop = some (.failed failure)) :
    o.Closes options 1 (conclude options w executed o) := by
  rw [conclude, hstop]
  exact withSummary_closes options _ o (by decide) fun o' => ⟨_, rfl⟩

/-- A run that has completed is concluded with its summary and 0 where nothing is to be delivered.
-/
theorem conclude_of_kept (hstop : executed.stop = none) (hwrite : options.write = false) :
    o.Closes options 0 (conclude options w executed o) := by
  rw [conclude, hstop]
  dsimp only
  rw [finish, hwrite, if_neg Bool.false_ne_true]
  exact withSummary_closes options _ o (by decide) fun o' => ⟨[], by rw [Outcome.report_nil]⟩

/-- A delivery that the null character ends is concluded with 2. -/
theorem conclude_of_cut (hstop : executed.stop = none) (hwrite : options.write = true)
    (hend : (Delivery.deliver w executed.results o.tree).2 ≠ none) :
    ∃ log, conclude options w executed o =
      Outcome.announce
        { o with tree := (Delivery.deliver w executed.results o.tree).1.tree, log := log }
        (.file .nullCharacter) := by
  rw [conclude, hstop]
  dsimp only
  rw [finish, hwrite, if_pos rfl]
  rcases hdelivered : Delivery.deliver w executed.results o.tree with ⟨p, _ | e⟩
  · rw [hdelivered] at hend
    exact absurd rfl hend
  · exact ⟨_, rfl⟩

/-- A delivery that comes to its end is concluded with the summary, and with 0 if nothing failed. -/
theorem conclude_of_delivered (hstop : executed.stop = none) (hwrite : options.write = true)
    (hend : (Delivery.deliver w executed.results o.tree).2 = none) :
    ∃ log, Outcome.Closes options
      { o with tree := (Delivery.deliver w executed.results o.tree).1.tree, log := log }
      (if (Delivery.deliver w executed.results o.tree).1.report.isOk then 0 else 1)
      (conclude options w executed o) := by
  rw [conclude, hstop]
  dsimp only
  rw [finish, hwrite, if_pos rfl]
  rcases hdelivered : Delivery.deliver w executed.results o.tree with ⟨p, _ | e⟩
  · refine ⟨_, withSummary_closes options _ _ ?_ fun o' => ⟨[], by rw [Outcome.report_nil]⟩⟩
    split <;> decide
  · rw [hdelivered] at hend
    cases hend

/-- What is concluded from a run is an exit code, and it calls no operation. -/
theorem conclude_ending :
    (∃ code, (conclude options w executed o).ending = .ok code) ∧
      (conclude options w executed o).calls = o.calls ∧
      (conclude options w executed o).world = o.world := by
  have hcloses {o' closed : Outcome σ} {code : Nat} (h : o'.Closes options code closed)
      (hcalls : o'.calls = o.calls) (hworld : o'.world = o.world) :
      (∃ code, closed.ending = .ok code) ∧ closed.calls = o.calls ∧ closed.world = o.world := by
    obtain ⟨⟨found, hfound, -⟩, hsummarises⟩ := h
    exact ⟨⟨found, hfound⟩, hsummarises.calls.trans hcalls, hsummarises.world.trans hworld⟩
  cases hstop : executed.stop with
  | none =>
    by_cases hwrite : options.write = true
    · by_cases hend : (Delivery.deliver w executed.results o.tree).2 = none
      · obtain ⟨_, hdelivered⟩ := conclude_of_delivered options w o hstop hwrite hend
        exact hcloses hdelivered rfl rfl
      · obtain ⟨_, hcut⟩ := conclude_of_cut options w o hstop hwrite hend
        rw [hcut]
        exact ⟨⟨_, rfl⟩, rfl, rfl⟩
    · exact hcloses (conclude_of_kept options w o hstop (Bool.eq_false_iff.mpr hwrite)) rfl rfl
  | some stop =>
    cases stop with
    | broken fault =>
      rw [conclude_of_broken options w o hstop]
      exact ⟨⟨_, rfl⟩, rfl, rfl⟩
    | failed failure => exact hcloses (conclude_of_failed options w o hstop) rfl rfl

end Conclude

end Runbook.CommandLine
