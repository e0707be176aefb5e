import Runbook.Proofs.Delivery.Attempt

/-!
# What a delivery does to the files

A delivery that comes to its end has written the outputs that it reports, the last one where several
go to one file. A step that is reported as a failure has left the files alone, unless the storage
has cut its file short: then the file holds the part that the storage has taken, and what it held
before is gone. Every other file is as it was, no file and no directory is gone, and the only new
directories lie on the way to the files that were to be written. Paths denote places, in which names
of two points are collapsed (`FileTree.parts_resolve`) and two slashes at the beginning count as
one.

The module introduces:

* `Delivery.CutsShort`: the storage has cut the file of a step short;
* `Delivery.Effects`: what becomes of the files.

The main result is `Delivery.deliver_effects`. Where the storage cuts nothing short it comes to
`Delivery.Effects.of_ample`.
-/

namespace Runbook.Delivery

variable {w : Workflow} {results : Results} {tree : FileTree}

/-- At the turn of a step the storage has cut the file of its output short: that is reported, the
file holds what the storage has taken, and all others hold what they held. -/
inductive CutsShort (w : Workflow) (results : Results) (step : Step) (turn next : Progress) : Prop
  | mk {target : String} {captured : Captured} {cut : Cut}
      (hitem : Item.of results step = .output target captured)
      (hcut : some cut ∈ turn.tree.storage)
      (hfailures : next.report.failures = turn.report.failures ++
        [⟨step.name, w.destination target, (FileTree.Error.refused cut.reason none).message⟩])
      (hcontent : ∀ place, next.tree.content? place =
        if place = turn.tree.placeOf (w.destination target) then
          some ((Text.Utf8.encode (render step captured)).take cut.kept)
        else turn.tree.content? place)

/-- What a delivery has done to a tree of files, of which `all` are its attempts. The octets of a
text are those that are decoded to it (`Text.Utf8.decode_eq_ok_iff`), which are also those of the
core library (`Text.Utf8.toByteArray_encode`). -/
structure Effects (w : Workflow) (results : Results) (tree : FileTree) (all : List Attempt)
    (p : Progress) : Prop where
  /-- There is an attempt for every step that has an output and names a file for it. -/
  steps : all.map Attempt.step = w.steps.filter (hasOutput results)
  /-- What is attempted is the output of the step, to the file that the step names. -/
  outputs : ∀ a ∈ all, ∃ target, Item.of results a.step = .output target a.captured ∧
    a.path = w.destination target
  /-- The files that are reported as written are those of the attempts that came to this. -/
  reported : p.report.written = (all.filter Attempt.isWritten).map (Attempt.shown w tree)
  /-- All other attempts are reported as failures, under the names of their steps. -/
  failures : p.report.failures.map Failure.step =
    (all.filter (!·.isWritten)).map fun a => a.step.name
  /-- Every attempt has written its file to the end, or it has not opened it, or the storage has cut
  it short. -/
  ends : ∀ a ∈ all, a.Ends tree.storage
  /-- A file that is written holds what the last attempt to write it was to write, if no attempt
  after it was cut short there. -/
  written : ∀ {before : List Attempt} {a : Attempt} {after : List Attempt},
    all = before ++ a :: after → a.isWritten = true →
    (∀ b ∈ after, b.left ≠ none → tree.placeOf b.path ≠ tree.placeOf a.path) →
    p.tree.get? (tree.placeOf a.path) = some (.file (Text.Utf8.encode (render a.step a.captured)))
  /-- A file that was cut short holds what the storage has taken of it, from the beginning of what
  was to be written, if no attempt after it has opened the file. -/
  cut : ∀ {before : List Attempt} {a : Attempt} {after : List Attempt} {octets : List UInt8},
    all = before ++ a :: after → a.isWritten = false → a.left = some octets →
    (∀ b ∈ after, b.left ≠ none → tree.placeOf b.path ≠ tree.placeOf a.path) →
    p.tree.get? (tree.placeOf a.path) = some (.file octets) ∧
      octets <+: Text.Utf8.encode (render a.step a.captured)
  /-- Where no file is opened, files hold what they held, and none has come or gone. -/
  others : ∀ {place : List String},
    (∀ a ∈ all, a.left ≠ none → tree.placeOf a.path ≠ place) →
    p.tree.content? place = tree.content? place
  /-- Files stay files, also those that were opened. -/
  files : ∀ {place : List String} {content : List UInt8}, tree.get? place = some (.file content) →
    ∃ content', p.tree.get? place = some (.file content')
  /-- Directories remain. -/
  directories : ∀ {place : List String}, tree.get? place = some .directory →
    p.tree.get? place = some .directory
  /-- New directories lie on the way to the files that were to be written. -/
  made : ∀ {place : List String}, tree.get? place = none →
    p.tree.get? place = some .directory → ∃ a ∈ all, tree.OnTheWay a.path.parent place
  /-- A step that is reported as a failure leaves the files as they were at its turn, unless the
  storage has cut its file short. -/
  refused : ∀ {before : List Step} {step : Step} {after : List Step},
    w.steps = before ++ step :: after →
    let turn := (deliverSteps w results before { tree := tree }).1
    let next := (deliverStep w results step turn).1
    next.report.failures ≠ turn.report.failures →
    (∀ place, next.tree.content? place = turn.tree.content? place) ∨
      CutsShort w results step turn next

/-- A step that is reported as a failure has opened no file, or the storage has cut its file short.
-/
theorem cutsShort_of_failure {step : Step} {p : Progress}
    (h : (deliverStep w results step p).1.report.failures ≠ p.report.failures) :
    (∀ place, (deliverStep w results step p).1.tree.content? place = p.tree.content? place) ∨
      CutsShort w results step p (deliverStep w results step p).1 := by
  cases houtput : hasOutput results step with
  | false =>
    obtain ⟨-, hreport, -⟩ := deliverStep_idle (w := w) houtput p
    exact absurd (congrArg Report.failures hreport) h
  | true =>
    obtain ⟨target, captured, hitem⟩ := hasOutput_eq_true_iff.mp houtput
    obtain ⟨htree, hreport, -⟩ := deliverStep_attempt (w := w) hitem p
    have hchanged := attemptFile_changed w step target captured p.tree
    rcases attempt_ends w step target captured p.tree with
      ⟨herror, -⟩ | ⟨-, hleft⟩ | ⟨hcut, herror, hleft⟩
    -- An attempt that has written its file adds no failure.
    · refine absurd ?_ h
      rw [hreport]
      simp [Report.add, Attempt.failure?, herror]
    · refine .inl fun place => ?_
      rw [htree, hchanged.content?_eq, Attempt.leftAt, hleft]
      exact Option.none_or
    · refine .inr (.mk hitem hcut ?_ fun place => ?_)
      · rw [hreport]
        simp only [Report.add, Attempt.failure?, herror, Option.toList_some]
        rfl
      · rw [htree, hchanged.content?_eq, Attempt.leftAt, hleft]
        change Option.or (if place = p.tree.placeOf (w.destination target) then _ else none) _ = _
        by_cases hplace : place = p.tree.placeOf (w.destination target)
        · rw [if_pos hplace, if_pos hplace]
          rfl
        · rw [if_neg hplace, if_neg hplace, Option.none_or]

/-- What a delivery that comes to its end does to the files, and how its report tells of it. -/
theorem deliver_effects (w : Workflow) (results : Results) (tree : FileTree)
    (hend : (deliver w results tree).2 = none) :
    Effects w results tree (attempts w results w.steps tree) (deliver w results tree).1 := by
  have hdelivers : Delivers w results w.steps { tree := tree } (attempts w results w.steps tree)
      (deliver w results tree) := deliverSteps_delivers w results w.steps { tree := tree }
  obtain ⟨hwritten, hfailures⟩ := hdelivers.report
  have hchanged := hdelivers.changed
  have hends : ∀ a ∈ attempts w results w.steps tree, a.Ends tree.storage :=
    fun a ha => hdelivers.ends ha
  -- What the last attempt to open a file has left there is what it holds in the end.
  have hlast {before : List Attempt} {a : Attempt} {after : List Attempt} {octets : List UInt8}
      (hsplit : attempts w results w.steps tree = before ++ a :: after)
      (hleft : a.left = some octets)
      (hafter : ∀ b ∈ after, b.left ≠ none → tree.placeOf b.path ≠ tree.placeOf a.path) :
      (deliver w results tree).1.tree.get? (tree.placeOf a.path) = some (.file octets) := by
    refine hchanged.file ?_
    rw [hsplit]
    exact lastLeft_of_split hleft hafter
  have hmem {before : List Attempt} {a : Attempt} {after : List Attempt}
      (hsplit : attempts w results w.steps tree = before ++ a :: after) :
      a ∈ attempts w results w.steps tree :=
    hsplit ▸ List.mem_append_right _ List.mem_cons_self
  refine
    { steps := hdelivers.attempted_steps hend
      outputs := fun a ha => (hdelivers.of_mem ha).2
      reported := hwritten
      failures := (congrArg (List.map Failure.step) hfailures).trans (hdelivers.failures hend)
      ends := hends
      written := fun hsplit ha hafter =>
        hlast hsplit ((hends _ (hmem hsplit)).left_of_isWritten ha) hafter
      cut := fun hsplit _ hleft hafter =>
        ⟨hlast hsplit hleft hafter, (hends _ (hmem hsplit)).prefix_content hleft⟩
      others := fun hplace => ?_
      files := hchanged.grows.file
      directories := hchanged.directory
      made := hchanged.made_of_new
      refused := fun _ hfailed => cutsShort_of_failure hfailed }
  rw [hchanged.content?_eq, lastLeft_eq_none hplace]
  exact Option.none_or

/-- Where the storage cuts nothing short, no step that is reported as a failure has opened a file:
every file that is reported as written holds the last output that was written to it, and every other
file is as it was. -/
theorem Effects.of_ample {all : List Attempt} {p : Progress}
    (h : Effects w results tree all p) (hample : tree.IsAmple) :
    (∀ {before : List Attempt} {a : Attempt} {after : List Attempt},
      all = before ++ a :: after → a.isWritten = true →
      (∀ b ∈ after, b.isWritten = true → tree.placeOf b.path ≠ tree.placeOf a.path) →
      p.tree.get? (tree.placeOf a.path) =
        some (.file (Text.Utf8.encode (render a.step a.captured)))) ∧
      ∀ {place : List String},
        (∀ a ∈ all, a.isWritten = true → tree.placeOf a.path ≠ place) →
        p.tree.content? place = tree.content? place := by
  have hopened : ∀ a ∈ all, a.left ≠ none → a.isWritten = true := by
    intro a ha hleft
    rw [(h.ends a ha).left_of_ample hample] at hleft
    cases hwritten : a.isWritten with
    | true => rfl
    | false => exact absurd (if_neg (Bool.eq_false_iff.mp hwritten)) hleft
  refine ⟨fun hsplit hwritten hafter => h.written hsplit hwritten fun b hb hleft => ?_,
    fun hplace => h.others fun a ha hleft => hplace a ha (hopened a ha hleft)⟩
  refine hafter b hb (hopened b ?_ hleft)
  rw [hsplit]
  exact List.mem_append_right _ (List.mem_cons_of_mem _ hb)

/-- A workflow of three steps: the second is to write below the file of the first, the third to the
same file by another path. -/
def crossingWorkflow : Workflow :=
  { sourcePath := some (Path.ofText "/flows/main.json")
    steps := [
      { name := "first", type := "say", enabled := true, outputFilePath := some "out/a.txt" },
      { name := "below", type := "say", enabled := true, outputFilePath := some "out/a.txt/b" },
      { name := "again", type := "say", enabled := true,
        outputFilePath := some "out/deep/../a.txt" }] }

/-- What the steps have captured. -/
def crossingResults : Results :=
  [("first", [("Result", ⟨"one", "text"⟩)]), ("below", [("Result", ⟨"two", "text"⟩)]),
    ("again", [("Result", ⟨"three", "text"⟩)])]

/-- The directory of the document. -/
def flowsTree : FileTree :=
  .ofCurrent ["flows"]

/-- Two steps are reported as written and one as a failure, and the file holds the output of the
last step. -/
theorem deliver_effects_crossing :
    (deliver crossingWorkflow crossingResults flowsTree).2 = none ∧
      (deliver crossingWorkflow crossingResults flowsTree).1.report.written =
        ["out/a.txt", "out/a.txt"] ∧
      (deliver crossingWorkflow crossingResults flowsTree).1.tree.content?
        ["flows", "out", "a.txt"] = some (Text.Utf8.encode "three\n") ∧
      Effects crossingWorkflow crossingResults flowsTree
        (attempts crossingWorkflow crossingResults crossingWorkflow.steps flowsTree)
        (deliver crossingWorkflow crossingResults flowsTree).1 := by
  have hend : (deliver crossingWorkflow crossingResults flowsTree).2 = none := by decide +kernel
  refine ⟨hend, by decide +kernel, by decide +kernel, ?_⟩
  exact deliver_effects crossingWorkflow crossingResults flowsTree hend

/-- A workflow of three steps: the first two write to the same file, of which the second names the
path with two slashes at its beginning, and the third to another one. -/
def brimfulWorkflow : Workflow :=
  { sourcePath := some (Path.ofText "/flows/main.json")
    steps := [
      { name := "first", type := "say", enabled := true, outputFilePath := some "a.txt" },
      { name := "slashes", type := "say", enabled := true,
        outputFilePath := some "//flows/a.txt" },
      { name := "last", type := "say", enabled := true, outputFilePath := some "b.txt" }] }

/-- What the steps have captured. -/
def brimfulResults : Results :=
  [("first", [("Result", ⟨"one", "text"⟩)]), ("slashes", [("Result", ⟨"two", "text"⟩)]),
    ("last", [("Result", ⟨"three", "text"⟩)])]

/-- The directory of the document with an older file of the third step. After two more files there
is storage for three octets. -/
def brimfulTree : FileTree :=
  { flowsTree.put ["flows", "b.txt"] (.file (Text.Utf8.encode "older\n")) with
    storage := [none, none, some ⟨3, .noSpace⟩] }

/-- The step that is reported as a failure has changed a file: the older file is gone, and it holds
a part of the output. And the path of the file that the first step has written is not the one that
the second step names, yet the file holds the output of the second. -/
theorem deliver_brimful :
    (deliver brimfulWorkflow brimfulResults brimfulTree).2 = none ∧
      (deliver brimfulWorkflow brimfulResults brimfulTree).1.report =
        ⟨["a.txt", "a.txt"],
          [⟨"last", ⟨.single, ["flows", "b.txt"]⟩, "[Errno 28] No space left on device"⟩]⟩ ∧
      brimfulTree.content? ["flows", "b.txt"] = some (Text.Utf8.encode "older\n") ∧
      (deliver brimfulWorkflow brimfulResults brimfulTree).1.tree.content? ["flows", "b.txt"] =
        some (Text.Utf8.encode "thr") ∧
      brimfulWorkflow.destination "a.txt" = ⟨.single, ["flows", "a.txt"]⟩ ∧
      brimfulWorkflow.destination "//flows/a.txt" = ⟨.double, ["flows", "a.txt"]⟩ ∧
      (deliver brimfulWorkflow brimfulResults brimfulTree).1.tree.content? ["flows", "a.txt"] =
        some (Text.Utf8.encode "two\n") := by
  refine ⟨?_, ?_, ?_, ?_, ?_, ?_, ?_⟩ <;> decide +kernel

end Runbook.Delivery
