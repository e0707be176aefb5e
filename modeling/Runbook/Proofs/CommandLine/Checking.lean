import Runbook.Proofs.CommandLine.Course

/-!
# Checking a document and running it dry

Checking a document and a dry run open the same document, and they end with the same exit code
wherever the document is a matter of its definition: it makes a workflow, or none, or it is not
there. They differ in what they do about anything else that comes in between: a dry run answers for
it with an exit code, and from checking it escapes.

The module introduces `CommandLine.Agreement`: how the two compare. The main result is
`CommandLine.validate_dryRun_agreement`.
-/

namespace Runbook.CommandLine

variable {σ : Type}

/-- How checking ends with what is found. -/
def Opening.checked : Opening → Except Trouble Nat
  | .absent => .ok 1
  | .faulty => .ok 2
  | .trouble t => .error t
  | .loaded _ => .ok 0

/-- The exit code that a dry run ends with. -/
def Opening.dryCode : Opening → Nat
  | .absent => 1
  | .faulty => 2
  | .trouble t => t.origin.exitCode
  | .loaded _ => 0

/-- Checking opens the document, and it changes nothing. -/
theorem validate_ending (tree : FileTree) (world : σ) (name : String) :
    (validate { tree := tree, world := world } name).ending = (opening tree name).checked ∧
      (validate { tree := tree, world := world } name).Idle tree world := by
  obtain ⟨log, hlog⟩ := withDocument_resume ({ tree := tree, world := world } : Outcome σ)
    Outcome.escape name (fun _ => [])
    fun o w => { o with shown := o.shown ++ String.join (w.steps.map stepLine) }
  simp only [Outcome.report_nil] at hlog
  unfold validate
  rw [hlog]
  cases opening tree name <;> exact ⟨rfl, rfl, rfl, rfl⟩

/-- A dry run ends before anything is run. -/
theorem declines_dryRun (catalogue : Catalogue σ) {options : Options} (tree : FileTree)
    (name : String) (hdry : options.dryRun = true) :
    Declines catalogue options tree name (opening tree name).dryCode := by
  have hopens : Opens tree name (opening tree name) := opens_iff.mpr rfl
  cases hfound : opening tree name with
  | absent => exact .absent (hfound ▸ hopens)
  | faulty => exact .faulty (hfound ▸ hopens)
  | trouble t => exact .trouble (hfound ▸ hopens)
  | loaded w => exact .dry (hfound ▸ hopens) hdry

/-- How checking a document and running it dry compare. -/
structure Agreement (tree : FileTree) (world : σ) (name : String) (checked dry : Outcome σ) :
    Prop where
  /-- Checking ends with 0 just for a workflow. -/
  checked_zero : checked.ending = .ok 0 ↔ ∃ w, Opens tree name (.loaded w)
  /-- Checking ends with 1 just where nothing is. -/
  checked_one : checked.ending = .ok 1 ↔ Opens tree name .absent
  /-- Checking ends with 2 just for what makes no workflow. -/
  checked_two : checked.ending = .ok 2 ↔ Opens tree name .faulty
  /-- What else comes in between escapes. -/
  checked_error : ∀ t, checked.ending = .error t ↔ Opens tree name (.trouble t)
  /-- Nothing escapes from a dry run. -/
  dry_ending : ∃ code ∈ [0, 1, 2], dry.ending = .ok code
  /-- A dry run ends with 0 just for a workflow. -/
  dry_zero : dry.ending = .ok 0 ↔ ∃ w, Opens tree name (.loaded w)
  /-- A dry run ends with 1 where nothing is, and for trouble that no value is to blame for. -/
  dry_one : dry.ending = .ok 1 ↔
    Opens tree name .absent ∨ ∃ t, Opens tree name (.trouble t) ∧ t.origin ≠ .value
  /-- A dry run ends with 2 for what makes no workflow, and for trouble with a value. -/
  dry_two : dry.ending = .ok 2 ↔
    Opens tree name .faulty ∨ ∃ t, Opens tree name (.trouble t) ∧ t.origin = .value
  /-- The two end alike just where nothing comes in between. -/
  agree : checked.ending = dry.ending ↔ ∀ t, ¬Opens tree name (.trouble t)
  /-- Checking changes nothing. -/
  checked_idle : checked.Idle tree world
  /-- A dry run changes nothing. -/
  dry_idle : dry.Idle tree world

/-- The exit code of trouble tells whether a value is to blame. -/
theorem exitCode_origin (t : Trouble) :
    (t.origin.exitCode = 1 ∧ t.origin ≠ .value) ∨ (t.origin.exitCode = 2 ∧ t.origin = .value) := by
  cases t.origin <;> decide

/-- Checking a document and running it dry end with the same exit code, 0 for a workflow, 1 where
nothing is, 2 for what makes no workflow, unless something comes in between that is no matter of the
definition: that escapes from checking, and a dry run ends for it with 2 if it is a value that is
not accepted, and else with 1. -/
theorem validate_dryRun_agreement (catalogue : Catalogue σ) (tree : FileTree) (world : σ)
    (name : String) (options options' : Options) :
    Agreement tree world name
      ((⟨.validate, name, options⟩ : Command).perform catalogue tree world)
      ((⟨.run, name, { options' with dryRun := true }⟩ : Command).perform catalogue tree
        world) := by
  obtain ⟨hchecked, hcheckedIdle⟩ := validate_ending tree world name
  have hdeclines : Declines catalogue { options' with dryRun := true } tree name
      (opening tree name).dryCode := declines_dryRun catalogue tree name rfl
  obtain ⟨hdry, hdryIdle⟩ := hdeclines.ending world
  unfold Command.perform
  refine ⟨?_, ?_, ?_, fun t => ?_, ?_, ?_, ?_, ?_, ?_, hcheckedIdle, hdryIdle⟩
  all_goals
    simp only [hchecked, hdry, opens_iff]
    cases opening tree name with
    | trouble t =>
      -- Trouble ends a dry run with 1 or 2, as it comes from a value or not.
      rcases exitCode_origin t with ⟨hcode, horigin⟩ | ⟨hcode, horigin⟩
      · have hdryCode : (Opening.trouble t).dryCode = 1 := hcode
        simp [Opening.checked, hdryCode, horigin]
      · have hdryCode : (Opening.trouble t).dryCode = 2 := hcode
        simp [Opening.checked, hdryCode, horigin]
    | _ => simp [Opening.checked, Opening.dryCode]

/-- A directory with a document of one octet that is no text. -/
def octetTree : FileTree :=
  (FileTree.ofCurrent ["flows"]).put ["flows", "main.json"] (.file [0xff])

-- The fault escapes from checking, where the dry run ends with an exit code.
example :
    (validate ({ tree := octetTree, world := () } : Outcome Unit) "main.json").ending =
        .error (.load (.encoding ⟨0xff, 0, 1, .invalidStart⟩)) ∧
      (run [] { dryRun := true } "main.json"
        ({ tree := octetTree, world := () } : Outcome Unit)).ending = .ok 2 := by
  decide +kernel

end Runbook.CommandLine
