import Runbook.Proofs.CommandLine.Course
import Runbook.Proofs.Delivery.Attempt
import Runbook.Proofs.Run.Captured

/-!
# What exit code 0 means

Running a workflow ends with exit code 0 only if everything was delivered: the run has come to its
end, every enabled step is captured, and the files that the enabled steps name hold their outputs,
except where a later step or the summary goes to the same file. A run that stops ends with another
exit code and delivers nothing.

The module introduces `CommandLine.Delivered`: what has come of a workflow that was delivered. The
main result is `CommandLine.run_delivers`.
-/

namespace Runbook.CommandLine

variable {σ : Type} {catalogue : Catalogue σ} {options : Options} {tree : FileTree} {world : σ}
  {name : String} {w : Workflow} {executed : Run σ}

/-- A workflow that was run in a tree of files is delivered. -/
structure Delivered (options : Options) (tree : FileTree) (w : Workflow) (executed : Run σ)
    (outcome : Outcome σ) : Prop where
  /-- The run has come to its end, where every enabled step is captured. -/
  finished : w.Finished executed
  /-- An enabled step has an output. -/
  captured : ∀ step ∈ w.steps, step.enabled = true →
    ∃ captured, ((executed.results.lookup step.name).getD []).lookup step.outputName = some captured
  /-- The file that an enabled step names holds the step's output, unless a later step names the
  same file or it is that of the summary. -/
  files : ∀ {before : List Step} {step : Step} {after : List Step} {target : String},
    w.steps = before ++ step :: after → step.enabled = true →
    step.outputFilePath = some target → Text.isBlank target = false →
    (∀ later ∈ after, ∀ other, later.outputFilePath = some other →
      tree.placeOf (w.destination other) ≠ tree.placeOf (w.destination target)) →
    options.summaryPath?.map tree.placeOf ≠ some (tree.placeOf (w.destination target)) →
    ∃ captured,
      ((executed.results.lookup step.name).getD []).lookup step.outputName = some captured ∧
        outcome.tree.read (w.destination target) =
          .ok (Text.Utf8.encode (Delivery.render step captured))

/-- Paths denote the same places after a delivery. -/
theorem placeOf_deliver (w : Workflow) (results : Results) (tree : FileTree) :
    (Delivery.deliver w results tree).1.tree.placeOf = tree.placeOf := by
  have hdelivers := Delivery.deliverSteps_delivers w results w.steps { tree := tree }
  exact funext (FileTree.placeOf_congr hdelivers.changed.current)

/-- In a delivery without failures every attempt has written its file. -/
theorem isWritten_of_isOk {results : Results}
    (hend : (Delivery.deliver w results tree).2 = none)
    (hok : (Delivery.deliver w results tree).1.report.isOk = true) {a : Delivery.Attempt}
    (ha : a ∈ Delivery.attempts w results w.steps tree) : a.isWritten = true := by
  have hdelivers := Delivery.deliverSteps_delivers w results w.steps { tree := tree }
  have hreport : (Delivery.deliver w results tree).1.report.failures =
      (Delivery.attempts w results w.steps tree).filterMap Delivery.Attempt.failure? :=
    hdelivers.report.2
  have hnames := hdelivers.failures hend
  rw [← hreport, List.isEmpty_iff.mp hok] at hnames
  -- There is no failure, and so no attempt is among those that have not written their file.
  have hnone := List.map_eq_nil_iff.mp hnames.symm
  have hwritten := List.filter_eq_nil_iff.mp hnone a ha
  simpa using hwritten

/-- A delivery without failures has written the output of a step to the file that it names, unless a
later step names the same file. -/
theorem read_of_isOk {results : Results} (hend : (Delivery.deliver w results tree).2 = none)
    (hok : (Delivery.deliver w results tree).1.report.isOk = true) {before after : List Step}
    {step : Step} {target : String} {captured : Captured}
    (hsteps : w.steps = before ++ step :: after)
    (hitem : Delivery.Item.of results step = .output target captured)
    (hlast : ∀ later ∈ after, ∀ other, later.outputFilePath = some other →
      tree.placeOf (w.destination other) ≠ tree.placeOf (w.destination target)) :
    (w.destination target).holdsNull = false ∧
      (Delivery.deliver w results tree).1.tree.locate (w.destination target) =
        .ok (.entry (tree.placeOf (w.destination target))) ∧
      (Delivery.deliver w results tree).1.tree.content? (tree.placeOf (w.destination target)) =
        some (Text.Utf8.encode (Delivery.render step captured)) := by
  have hdelivers : Delivery.Delivers w results w.steps { tree := tree }
      (Delivery.attempts w results w.steps tree) (Delivery.deliver w results tree) :=
    Delivery.deliverSteps_delivers w results w.steps { tree := tree }
  obtain ⟨earlier, error, left, later, hall, hlater⟩ := hdelivers.exists_attempt hend hsteps hitem
  have hmem : (⟨step, captured, w.destination target, error, left⟩ : Delivery.Attempt) ∈
      Delivery.attempts w results w.steps tree :=
    hall ▸ List.mem_append_right _ List.mem_cons_self
  have hleft := (hdelivers.ends hmem).left_of_isWritten (isWritten_of_isOk hend hok hmem)
  obtain ⟨hnull, hlocate⟩ := hdelivers.locate hmem hleft
  refine ⟨hnull, hlocate, FileTree.content?_eq_some_iff.mpr (hdelivers.changed.file ?_)⟩
  rw [hall]
  apply Delivery.lastLeft_of_split hleft
  intro b hb _
  -- An attempt after this one is one to write to the file that a later step names.
  have hb' : b ∈ Delivery.attempts w results w.steps tree := by
    rw [hall]
    exact List.mem_append_right _ (List.mem_cons_of_mem _ hb)
  obtain ⟨-, other, hother, hpath⟩ := hdelivers.of_mem hb'
  rw [hpath]
  exact hlast b.step (hlater b hb) other (Delivery.outputFilePath_of_item hother)

/-- A command that shows a summary ends with 0 only if it was to. -/
theorem Outcome.Closes.eq_zero {o closed : Outcome σ} {code : Nat}
    (h : o.Closes options code closed) (hzero : closed.ending = .ok 0) : code = 0 := by
  obtain ⟨found, hfound, hcode, -⟩ := h.ending
  exact hcode (Except.ok.inj (hfound.symm.trans hzero))

/-- A run that has stopped is not concluded with 0, and no file is written but the summary's. -/
theorem conclude_of_stopped (log : Log) (hstop : executed.stop ≠ none) :
    (conclude options w executed (.ofRun tree executed log)).ending ≠ .ok 0 ∧
      SummaryChange options tree (conclude options w executed (.ofRun tree executed log)).tree := by
  rcases hfound : executed.stop with _ | failure | fault
  · exact absurd hfound hstop
  · have hcloses := conclude_of_failed options w (.ofRun tree executed log) hfound
    exact ⟨fun hzero => Nat.one_ne_zero (hcloses.eq_zero hzero), hcloses.summarises.files⟩
  · rw [conclude_of_broken options w _ hfound]
    exact ⟨nofun, .refl options tree⟩

/-- A run that is concluded with 0 and whose outputs were to be written has been delivered without a
failure, and only the summary was written after that. -/
theorem conclude_eq_zero (log : Log) (hwrite : options.write = true)
    (hzero : (conclude options w executed (.ofRun tree executed log)).ending = .ok 0) :
    executed.stop = none ∧ (Delivery.deliver w executed.results tree).2 = none ∧
      (Delivery.deliver w executed.results tree).1.report.isOk = true ∧
      SummaryChange options (Delivery.deliver w executed.results tree).1.tree
        (conclude options w executed (.ofRun tree executed log)).tree := by
  by_cases hstop : executed.stop = none
  · by_cases hend : (Delivery.deliver w executed.results tree).2 = none
    · obtain ⟨_, hcloses⟩ :=
        conclude_of_delivered options w (.ofRun tree executed log) hstop hwrite hend
      refine ⟨hstop, hend, ?_, hcloses.summarises.files⟩
      by_contra hfailed
      exact Nat.one_ne_zero ((if_neg hfailed).symm.trans (hcloses.eq_zero hzero))
    · obtain ⟨_, hcut⟩ := conclude_of_cut options w (.ofRun tree executed log) hstop hwrite hend
      rw [hcut] at hzero
      cases hzero
  · exact absurd hzero (conclude_of_stopped log hstop).1

/-- Trouble leads to an exit code that is not 0. -/
theorem exitCode_ne_zero (origin : Trouble.Origin) : origin.exitCode ≠ 0 := by
  cases origin <;> decide

/-- What ends before anything is run ends with 0 only if the document alone was to be checked. -/
theorem Declines.ne_zero {code : Nat} (h : Declines catalogue options tree name code)
    (hdry : options.dryRun = false) : code ≠ 0 := by
  cases h with
  | absent => decide
  | faulty => decide
  | trouble => exact exitCode_ne_zero _
  | dry _ hwanted => cases hdry.symm.trans hwanted
  | operations => exact exitCode_ne_zero _

/-- Exit code 0 of running a workflow means that everything was delivered, if outputs were to be
written at all. A run that stops leads to another exit code, and no file is written but that of the
summary. -/
theorem run_delivers (catalogue : Catalogue σ) (tree : FileTree) (world : σ) (name : String)
    (options : Options) :
    let outcome := (⟨.run, name, options⟩ : Command).perform catalogue tree world
    (options.dryRun = false → options.write = true → outcome.ending = .ok 0 →
      ∃ w executed, Executes catalogue options tree world name w executed ∧
        Delivered options tree w executed outcome) ∧
      ∀ w executed, Executes catalogue options tree world name w executed →
        executed.stop ≠ none → outcome.ending ≠ .ok 0 ∧
          ∀ {place}, options.summaryPath?.map tree.placeOf ≠ some place →
            outcome.tree.content? place = tree.content? place := by
  intro outcome
  constructor
  · intro hdry hwrite hzero
    rcases declines_or_executes catalogue options tree world name with
      ⟨code, hdeclines⟩ | ⟨w, executed, h⟩
    -- Without a dry run, nothing that ends before the run ends with 0.
    · have hcode : code = 0 := Except.ok.inj ((hdeclines.ending world).1.symm.trans hzero)
      exact absurd hcode (hdeclines.ne_zero hdry)
    · obtain ⟨hvalid, registry, rfl⟩ := h.eq_runValid
      obtain ⟨log, hlog⟩ := h.outcome
      have houtcome : outcome = conclude options w (w.runValid registry world)
        (.ofRun tree (w.runValid registry world) log) := hlog
      rw [houtcome] at hzero ⊢
      obtain ⟨hstop, hend, hok, hsummary⟩ := conclude_eq_zero log hwrite hzero
      -- The names of steps differ, and so each finds what it has captured.
      have hnames := Workflow.nodup_names hvalid
      have henabledNames : ((w.steps.filter Step.enabled).map Step.name).Nodup :=
        hnames.sublist (List.filter_sublist.map _)
      have hcaptures := Workflow.captures_of_stop_eq hstop
      refine ⟨w, _, h, Workflow.finished_of_stop_eq hnames hstop, ?_, ?_⟩
      · intro step hstep henabled
        obtain ⟨text, -, hlookup⟩ :=
          lookup_of_captures hcaptures henabledNames (List.mem_filter.mpr ⟨hstep, henabled⟩)
        exact ⟨_, hlookup⟩
      · intro before step after target hsteps henabled htarget hblank hlast hplace
        have hstep : step ∈ w.steps := hsteps ▸ List.mem_append_right _ List.mem_cons_self
        obtain ⟨captured, hlookup, hitem⟩ := Delivery.item_of_captures hcaptures henabledNames
          (List.mem_filter.mpr ⟨hstep, henabled⟩) htarget hblank
        obtain ⟨hnull, hlocate, hcontent⟩ := read_of_isOk hend hok hsteps hitem hlast
        -- The summary is written after that, and to another file.
        have hother : options.summaryPath?.map
            (Delivery.deliver w (w.runValid registry world).results tree).1.tree.placeOf ≠
              some (tree.placeOf (w.destination target)) := by
          rw [placeOf_deliver]
          exact hplace
        have hfile := FileTree.content?_eq_some_iff.mp ((hsummary.content hother).trans hcontent)
        exact ⟨captured, hlookup, FileTree.read_of_locate hnull (hsummary.locate hlocate) hfile⟩
  · intro w executed h hstop
    obtain ⟨log, hlog⟩ := h.outcome
    have houtcome : outcome = conclude options w executed (.ofRun tree executed log) := hlog
    rw [houtcome]
    obtain ⟨hending, hsummary⟩ := conclude_of_stopped log hstop
    exact ⟨hending, hsummary.content⟩

/-- A directory with a document that says one step, whose output goes to a file. -/
def notesTree : FileTree :=
  (FileTree.ofCurrent ["flows"]).put ["flows", "main.json"] <| .file <| Text.Utf8.encode <|
    "\x7b\"Steps\":[\x7b\"Name\":\"A\",\"Type\":\"say\",\"Enabled\":true," ++
      "\"output_file_path\":\"out/a.txt\"\x7d]\x7d"

/-- A module with an operation that counts its calls. -/
def sayings : Catalogue Nat :=
  [("talk", .operations [("say", some fun _ _ calls => (.ok (.text "said"), calls + 1))])]

/-- Running the workflow of the document ends with 0, and the file holds what was said. -/
theorem run_delivers_notes :
    let outcome := (⟨.run, "main.json", { modules := ["talk"] }⟩ : Command).perform sayings
      notesTree 0
    outcome.ending = .ok 0 ∧
      outcome.tree.content? ["flows", "out", "a.txt"] = some (Text.Utf8.encode "said\n") ∧
      ∃ w executed, Executes sayings { modules := ["talk"] } notesTree 0 "main.json" w executed ∧
        Delivered { modules := ["talk"] } notesTree w executed outcome := by
  intro outcome
  have hends : outcome.ending = .ok 0 ∧
      outcome.tree.content? ["flows", "out", "a.txt"] = some (Text.Utf8.encode "said\n") := by
    decide +kernel
  refine ⟨hends.1, hends.2, ?_⟩
  exact (run_delivers sayings notesTree 0 "main.json" { modules := ["talk"] }).1 rfl rfl hends.1

end Runbook.CommandLine
