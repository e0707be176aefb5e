import Runbook.Proofs.CommandLine.Course
import Runbook.Proofs.Delivery.Attempt

/-!
# What exit code 2 means

Running a workflow ends with exit code 2 for a document that makes no workflow and for anything else
before the run that a value is to blame for; nothing has then been called or written. But a value
can come in the way later as well: the null character in the path of an output or of the summary's
file, and an integer of too many digits in the run. Exit code 2 then comes after calls have been
made and files have been written.

The module introduces `CommandLine.ValueFails`: the ways in which a value comes in the way of a run,
and `CommandLine.Untroubled`: where that cannot be. The main result is
`CommandLine.exitCode_two_iff`.
-/

namespace Runbook.CommandLine

variable {σ : Type} {catalogue : Catalogue σ} {options : Options} {tree : FileTree} {world : σ}
  {name : String} {w : Workflow} {executed : Run σ}

/-- A value comes in the way of a run or of what follows it. -/
inductive ValueFails (options : Options) (tree : FileTree) (w : Workflow) (executed : Run σ) : Prop
  /-- An integer cannot be read or shown, and the run breaks off. -/
  | integer {fault : Number.IntegerFault} (hstop : executed.stop = some (.broken fault))
  /-- The null character is in the way of an output that is to be written, when the outputs of the
  steps before have been. -/
  | output {before : List Step} {step : Step} {after : List Step} {target : String}
      {captured : Captured} (hstop : executed.stop = none) (hwrite : options.write = true)
      (hsteps : w.steps = before ++ step :: after)
      (hbefore : (Delivery.deliverSteps w executed.results before { tree := tree }).2 = none)
      (hitem : Delivery.Item.of executed.results step = .output target captured)
      (hmeets : (Delivery.deliverSteps w executed.results before
        { tree := tree }).1.tree.MeetsNull (w.destination target))
  /-- The null character is in the way of the summary of a run that has failed. -/
  | summaryOfFailed {failure : StepFailure} (hstop : executed.stop = some (.failed failure))
      (hmeets : options.SummaryMeetsNull tree)
  /-- The null character is in the way of the summary, where no output was to be written. -/
  | summaryOfKept (hstop : executed.stop = none) (hwrite : options.write = false)
      (hmeets : options.SummaryMeetsNull tree)
  /-- The null character is in the way of the summary, when the outputs have been delivered. -/
  | summaryOfDelivered (hstop : executed.stop = none) (hwrite : options.write = true)
      (hend : (Delivery.deliver w executed.results tree).2 = none)
      (hmeets : options.SummaryMeetsNull (Delivery.deliver w executed.results tree).1.tree)

/-- No value can come in the way of a run: it does not break off, and no path to be written to holds
the null character. -/
structure Untroubled (options : Options) (w : Workflow) (executed : Run σ) : Prop where
  /-- The run does not break off. -/
  whole : ∀ fault, executed.stop ≠ some (.broken fault)
  /-- No step names a path with the null character. -/
  outputs : ∀ step ∈ w.steps, ∀ target, step.outputFilePath = some target →
    (w.destination target).holdsNull = false
  /-- Neither do the options for the summary. -/
  summary : ∀ path, options.summaryPath? = some path → path.holdsNull = false

/-- No value comes in the way where none can. -/
theorem Untroubled.not_valueFails (h : Untroubled options w executed) :
    ¬ValueFails options tree w executed := by
  have hsummary (tree : FileTree) : ¬options.SummaryMeetsNull tree := by
    rintro ⟨path, hpath, hmeets⟩
    exact Bool.false_ne_true ((h.summary path hpath).symm.trans hmeets.holdsNull)
  intro hfails
  cases hfails with
  | integer hstop => exact h.whole _ hstop
  | @output before step after target captured hstop hwrite hsteps hbefore hitem hmeets =>
    have hstep : step ∈ w.steps := hsteps ▸ List.mem_append_right _ List.mem_cons_self
    have hfree := h.outputs step hstep target (Delivery.outputFilePath_of_item hitem)
    exact Bool.false_ne_true (hfree.symm.trans hmeets.holdsNull)
  | summaryOfFailed _ hmeets => exact hsummary _ hmeets
  | summaryOfKept _ _ hmeets => exact hsummary _ hmeets
  | summaryOfDelivered _ _ _ hmeets => exact hsummary _ hmeets

/-- A command that shows a summary ends with 2 just if the null character is in the way of it. -/
theorem Outcome.Closes.ending_eq_two_iff {o closed : Outcome σ} {code : Nat}
    (h : o.Closes options code closed) :
    closed.ending = .ok 2 ↔ options.SummaryMeetsNull o.tree := by
  obtain ⟨found, hfound, -, htwo⟩ := h.ending
  rw [hfound, ← htwo]
  exact ⟨Except.ok.inj, congrArg _⟩

/-- A run that has completed is concluded with exit code 2 just if a value comes in the way of an
output or of the summary. -/
theorem conclude_eq_two_of_completed (log : Log) (hstop : executed.stop = none) :
    (conclude options w executed (.ofRun tree executed log)).ending = .ok 2 ↔
      ValueFails options tree w executed := by
  by_cases hwrite : options.write = true
  · by_cases hend : (Delivery.deliver w executed.results tree).2 = none
    · obtain ⟨_, hcloses⟩ :=
        conclude_of_delivered options w (.ofRun tree executed log) hstop hwrite hend
      rw [hcloses.ending_eq_two_iff]
      refine ⟨.summaryOfDelivered hstop hwrite hend, fun hfails => ?_⟩
      -- The other ways belong to runs that ended otherwise.
      cases hfails with
      | summaryOfDelivered _ _ _ hmeets => exact hmeets
      | summaryOfKept _ hkept _ => cases hkept.symm.trans hwrite
      -- An output with the null character would have ended the delivery.
      | output _ _ hsteps hbefore hitem hmeets =>
        refine absurd hend (Delivery.deliver_null_iff.mpr ?_)
        exact ⟨_, _, _, _, _, hsteps, hbefore, hitem, hmeets⟩
      | integer hbroken => cases hbroken.symm.trans hstop
      | summaryOfFailed hfailed _ => cases hfailed.symm.trans hstop
    · obtain ⟨_, hcut⟩ := conclude_of_cut options w (.ofRun tree executed log) hstop hwrite hend
      obtain ⟨before, step, after, target, captured, hsteps, hbefore, hitem, hmeets⟩ :=
        Delivery.deliver_null_iff.mp hend
      rw [hcut]
      exact iff_of_true rfl (.output hstop hwrite hsteps hbefore hitem hmeets)
  · have hkept : options.write = false := Bool.eq_false_iff.mpr hwrite
    have hcloses := conclude_of_kept options w (.ofRun tree executed log) hstop hkept
    rw [hcloses.ending_eq_two_iff]
    refine ⟨.summaryOfKept hstop hkept, fun hfails => ?_⟩
    cases hfails with
    | summaryOfKept _ _ hmeets => exact hmeets
    | summaryOfDelivered _ hwrites _ _ => exact absurd hwrites hwrite
    | output _ hwrites _ _ _ _ => exact absurd hwrites hwrite
    | integer hbroken => cases hbroken.symm.trans hstop
    | summaryOfFailed hfailed _ => cases hfailed.symm.trans hstop

/-- A run is concluded with exit code 2 just if a value comes in the way. -/
theorem conclude_eq_two_iff (log : Log) :
    (conclude options w executed (.ofRun tree executed log)).ending = .ok 2 ↔
      ValueFails options tree w executed := by
  rcases hstop : executed.stop with _ | failure | fault
  · exact conclude_eq_two_of_completed log hstop
  · have hcloses := conclude_of_failed options w (.ofRun tree executed log) hstop
    rw [hcloses.ending_eq_two_iff]
    refine ⟨.summaryOfFailed hstop, fun hfails => ?_⟩
    cases hfails with
    | summaryOfFailed _ hmeets => exact hmeets
    | integer hbroken => cases hbroken.symm.trans hstop
    | output hnone _ _ _ _ _ => cases hnone.symm.trans hstop
    | summaryOfKept hnone _ _ => cases hnone.symm.trans hstop
    | summaryOfDelivered hnone _ _ _ => cases hnone.symm.trans hstop
  · rw [conclude_of_broken options w (.ofRun tree executed log) hstop]
    exact iff_of_true rfl (.integer hstop)

/-- Running a workflow ends with exit code 2 just in two ways: it ends before the run, for a
document that makes no workflow or for something else that a value is to blame for, and then nothing
is called or written; or a value comes in the way of the run or of what follows it. No exception
escapes. Where no value can come in the way of a run, exit code 2 means that nothing was called or
written. -/
theorem exitCode_two_iff (catalogue : Catalogue σ) (tree : FileTree) (world : σ) (name : String)
    (options : Options) :
    let outcome := (⟨.run, name, options⟩ : Command).perform catalogue tree world
    (∃ code, outcome.ending = .ok code) ∧
      (outcome.ending = .ok 2 ↔ Declines catalogue options tree name 2 ∨
        ∃ w executed, Executes catalogue options tree world name w executed ∧
          ValueFails options tree w executed) ∧
      (Declines catalogue options tree name 2 → outcome.Idle tree world) ∧
      (∀ w executed, Executes catalogue options tree world name w executed →
        outcome.calls = executed.calls ∧ outcome.world = executed.world ∧
          (outcome.ending = .ok 2 ↔ ValueFails options tree w executed)) ∧
      ((∀ w executed, Executes catalogue options tree world name w executed →
          Untroubled options w executed) →
        outcome.ending = .ok 2 → outcome.Idle tree world) := by
  intro outcome
  have hexecuted {w : Workflow} {executed : Run σ}
      (h : Executes catalogue options tree world name w executed) :
      (∃ code, outcome.ending = .ok code) ∧ outcome.calls = executed.calls ∧
        outcome.world = executed.world ∧
          (outcome.ending = .ok 2 ↔ ValueFails options tree w executed) := by
    obtain ⟨log, hlog⟩ := h.outcome
    obtain ⟨hending, hcalls, hworld⟩ := conclude_ending options w (.ofRun tree executed log)
    have htwo : (conclude options w executed (.ofRun tree executed log)).ending = .ok 2 ↔
        ValueFails options tree w executed := conclude_eq_two_iff log
    rw [← hlog] at hending hcalls hworld htwo
    exact ⟨hending, hcalls, hworld, htwo⟩
  -- Either nothing is run, or the outcome is concluded from a run.
  have hiff : outcome.ending = .ok 2 ↔ Declines catalogue options tree name 2 ∨
      ∃ w executed, Executes catalogue options tree world name w executed ∧
        ValueFails options tree w executed := by
    constructor
    · intro htwo
      rcases declines_or_executes catalogue options tree world name with
        ⟨code, hdeclines⟩ | ⟨w, executed, h⟩
      · obtain rfl := Except.ok.inj ((hdeclines.ending world).1.symm.trans htwo)
        exact .inl hdeclines
      · exact .inr ⟨w, executed, h, (hexecuted h).2.2.2.mp htwo⟩
    · rintro (hdeclines | ⟨w, executed, h, hfails⟩)
      · exact (hdeclines.ending world).1
      · exact (hexecuted h).2.2.2.mpr hfails
  refine ⟨?_, hiff, fun hdeclines => (hdeclines.ending world).2,
    fun w executed h => (hexecuted h).2, fun hfree htwo => ?_⟩
  · rcases declines_or_executes catalogue options tree world name with
      ⟨code, hdeclines⟩ | ⟨w, executed, h⟩
    · exact ⟨code, (hdeclines.ending world).1⟩
    · exact (hexecuted h).1
  · rcases hiff.mp htwo with hdeclines | ⟨w, executed, h, hfails⟩
    · exact (hdeclines.ending world).2
    · exact absurd hfails (hfree w executed h).not_valueFails

/-- A directory with a document of two steps, of which the second names a file with the null
character. -/
def severedTree : FileTree :=
  (FileTree.ofCurrent ["flows"]).put ["flows", "main.json"] <| .file <| Text.Utf8.encode <|
    "\x7b\"Steps\":[\x7b\"Name\":\"A\",\"Type\":\"say\",\"Enabled\":true," ++
      "\"output_file_path\":\"a.txt\"\x7d,\x7b\"Name\":\"B\",\"Type\":\"say\"," ++
      "\"Enabled\":true,\"output_file_path\":\"b\\u0000\"\x7d]\x7d"

-- Both steps are called and the first file is written before the exit code is 2.
example :
    let outcome := (⟨.run, "main.json", { modules := ["talk"] }⟩ : Command).perform
      [("talk", .operations [("say", some fun _ _ calls => (.ok (.text "said"), calls + 1))])]
      severedTree 0
    outcome.ending = .ok 2 ∧ outcome.world = 2 ∧
      outcome.tree.content? ["flows", "a.txt"] = some (Text.Utf8.encode "said\n") := by
  decide +kernel

end Runbook.CommandLine
