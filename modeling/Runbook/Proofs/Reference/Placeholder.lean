import Runbook.Proofs.Text.Split
import Runbook.Reference.Substitution

/-!
# Placeholders written out

A placeholder that is written out between its braces is found again as that placeholder, whatever
follows it, and what stands after the first point of its output part is cut into the segments that
were joined.

The module introduces:

* `Reference.IsScannable`: the references that a text can hold as placeholders;
* `Reference.ofPath`: the reference to what a path of segments leads to in an output.

The main results are `Reference.piecesFrom_text`, `Substitution.inText_text` and
`Pointer.resolve_ofPath`.
-/

namespace Runbook

namespace Reference

/-- A reference that a text can hold as a placeholder. -/
structure IsScannable (r : Reference) : Prop where
  /-- The step has a name. -/
  step_ne : r.step ≠ ""
  /-- The name can stand in a placeholder. -/
  step : ∀ c ∈ r.step.toList, isNameChar c = true
  /-- There is an output. -/
  output_ne : r.output ≠ ""
  /-- The output, with the path into it, can stand in a placeholder. -/
  output : ∀ c ∈ r.output.toList, isOutputChar c = true

/-- A text that can name a step or an output in a placeholder. -/
structure IsName (name : String) : Prop where
  /-- The text is not empty. -/
  ne_empty : name ≠ ""
  /-- Its characters are those of names. -/
  chars : ∀ c ∈ name.toList, isNameChar c = true

instance (name : String) : Decidable (IsName name) :=
  decidable_of_iff (name ≠ "" ∧ name.toList.all isNameChar = true)
    ⟨fun h => ⟨h.1, List.all_eq_true.mp h.2⟩, fun h => ⟨h.ne_empty, List.all_eq_true.mpr h.chars⟩⟩

theorem IsName.not_mem_point {name : String} (h : IsName name) : '.' ∉ name.toList := by
  intro hpoint
  cases h.chars '.' hpoint

/-- The segments of a path that can stand in a placeholder; some of them may be empty. -/
def AreSegments (path : List String) : Prop :=
  ∀ segment ∈ path, ∀ c ∈ segment.toList, isNameChar c = true

instance (path : List String) : Decidable (AreSegments path) :=
  decidable_of_iff ((path.all fun segment => segment.toList.all isNameChar) = true)
    (by simp only [AreSegments, List.all_eq_true])

theorem AreSegments.not_mem_point {path : List String} (h : AreSegments path) {segment : String}
    (hsegment : segment ∈ path) : '.' ∉ segment.toList := by
  intro hpoint
  cases h segment hsegment '.' hpoint

/-- The reference to what a path leads to in an output of a step. -/
def ofPath (step output : String) (path : List String) : Reference :=
  ⟨step, output ++ "." ++ Text.join "." path⟩

theorem text_ofPath (step output : String) (path : List String) :
    String.ofList (ofPath step output path).text =
      "\x7b" ++ step ++ "." ++ output ++ "." ++ Text.join "." path ++ "\x7d" := by
  rw [← String.toList_inj]
  simp [text, ofPath]

/-- A reference by names and segments can stand in a text. -/
theorem isScannable_ofPath {step output : String} {path : List String} (hstep : IsName step)
    (houtput : IsName output) (hpath : AreSegments path) :
    (ofPath step output path).IsScannable := by
  refine ⟨hstep.ne_empty, hstep.chars, ?_, ?_⟩
  · simp [ofPath]
  · intro c hc
    have hparts : c ∈ output.toList ∨ c = '.' ∨
        c ∈ Text.joinWith ['.'] (path.map String.toList) := by
      simpa [ofPath, Text.join] using hc
    have hmark : isOutputChar '.' = true := by decide
    rcases hparts with hc | rfl | hc
    · simp [isOutputChar, houtput.chars c hc]
    · exact hmark
    · rcases Text.mem_of_mem_joinWith hc with hc | ⟨piece, hpiece, hc⟩
      · rw [List.mem_singleton.mp hc]
        exact hmark
      · obtain ⟨segment, hsegment, rfl⟩ := List.mem_map.mp hpiece
        simp [isOutputChar, hpath segment hsegment c hc]

/-- Characters that belong to a placeholder found before are passed over. -/
theorem piecesFrom_append (front rest : List Char) :
    piecesFrom front.length (front ++ rest) = piecesFrom 0 rest := by
  induction front with
  | nil => rfl
  | cons c front ih => exact ih

/-- A placeholder is found at the front of its text, whatever follows. -/
theorem at?_text {r : Reference} (h : r.IsScannable) (rest : List Char) :
    at? (r.text ++ rest) =
      some (r, (r.step.toList ++ '.' :: (r.output.toList ++ ['\x7d'])).length) := by
  have hbody : (r.step.toList ++ '.' :: (r.output.toList ++ '\x7d' :: rest)).takeWhile
      isOutputChar = r.step.toList ++ '.' :: r.output.toList := by
    rw [List.takeWhile_append_of_pos fun c hc => by simp [isOutputChar, h.step c hc],
      List.takeWhile_cons, if_pos (by decide), List.takeWhile_append_of_pos h.output,
      List.takeWhile_cons, if_neg (by decide), List.append_nil]
  have hstep : (r.step.toList ++ '.' :: r.output.toList).takeWhile isNameChar =
      r.step.toList := by
    rw [List.takeWhile_append_of_pos h.step, List.takeWhile_cons, if_neg (by decide),
      List.append_nil]
  have hafter : (r.step.toList ++ '.' :: (r.output.toList ++ '\x7d' :: rest)).drop
      (r.step.toList ++ '.' :: r.output.toList).length = '\x7d' :: rest := by
    have hsplit : r.step.toList ++ '.' :: (r.output.toList ++ '\x7d' :: rest) =
        (r.step.toList ++ '.' :: r.output.toList) ++ '\x7d' :: rest := by simp
    rw [hsplit, List.drop_left]
  have htext : r.text ++ rest =
      '\x7b' :: (r.step.toList ++ '.' :: (r.output.toList ++ '\x7d' :: rest)) := by
    simp [text]
  rw [htext, at?]
  simp only [hbody, hstep, hafter, List.drop_left]
  simp [h.step_ne, h.output_ne, Nat.add_assoc]

/-- The scanner finds a placeholder at the front of a text just if the placeholder stands there, and
passes over the characters after its opening brace. -/
theorem at?_eq_some_iff {cs : List Char} {r : Reference} {length : Nat} :
    at? cs = some (r, length) ↔
      r.IsScannable ∧ r.text <+: cs ∧ r.text.length = length + 1 := by
  constructor
  · intro h
    unfold at? at h
    split at h
    · rename_i cs
      simp only at h
      split at h
      · rename_i output rest houtput hrest
        split at h
        · cases h
        · rename_i hne
          cases h
          have hstep := List.takeWhile_prefix isNameChar (l := cs.takeWhile isOutputChar)
          have hbody := List.takeWhile_prefix isOutputChar (l := cs)
          have hnames := List.all_eq_true.mp
            (List.all_takeWhile (p := isNameChar) (l := cs.takeWhile isOutputChar))
          have houtputs := List.all_eq_true.mp (List.all_takeWhile (p := isOutputChar) (l := cs))
          generalize (cs.takeWhile isOutputChar).takeWhile isNameChar = step at *
          generalize cs.takeWhile isOutputChar = body at *
          -- The name, the point and the output make up the body, and a brace follows it.
          have hparts := List.prefix_iff_eq_append.mp hstep
          have hwhole := List.prefix_iff_eq_append.mp hbody
          rw [houtput] at hparts
          rw [hrest] at hwhole
          subst hparts
          simp only [Bool.or_eq_true, List.isEmpty_iff, not_or] at hne
          refine ⟨⟨?_, ?_, ?_, ?_⟩, ⟨rest, ?_⟩, ?_⟩
          · exact mt String.ofList_eq_empty_iff.mp hne.1
          · rwa [String.toList_ofList]
          · exact mt String.ofList_eq_empty_iff.mp hne.2
          · intro c hc
            rw [String.toList_ofList] at hc
            exact houtputs c (List.mem_append_right _ (List.mem_cons_of_mem _ hc))
          · rw [← hwhole]
            simp [text]
          · simp [text, Nat.add_assoc]
      · cases h
    · cases h
  · rintro ⟨hscannable, ⟨rest, rfl⟩, hlength⟩
    have htext : r.text.length =
        (r.step.toList ++ '.' :: (r.output.toList ++ ['\x7d'])).length + 1 := rfl
    rw [at?_text hscannable, Nat.add_right_cancel (htext.symm.trans hlength)]

/-- A placeholder that is written out is one piece of the text. -/
theorem piecesFrom_text {r : Reference} (h : r.IsScannable) (rest : List Char) :
    piecesFrom 0 (r.text ++ rest) = .placeholder r :: piecesFrom 0 rest := by
  have hat := at?_text h rest
  have htext : r.text ++ rest =
      '\x7b' :: ((r.step.toList ++ '.' :: (r.output.toList ++ ['\x7d'])) ++ rest) := by
    simp [text]
  rw [htext] at hat ⊢
  rw [piecesFrom, hat]
  simp only [piecesFrom_append]

end Reference

/-- A text that is one placeholder becomes the text of the value that it points to. -/
theorem Substitution.inText_text {results : Results} {r : Reference} (h : r.IsScannable)
    {j : Json} (hresolve : Pointer.resolve results r.step r.output = .ok j) :
    inText results (String.ofList r.text) = .ok j.inserted := by
  have hpieces : Reference.pieces (String.ofList r.text) = [.placeholder r] := by
    rw [Reference.pieces, String.toList_ofList, ← List.append_nil r.text,
      Reference.piecesFrom_text h]
    rfl
  rw [inText, hpieces, ofPieces, ofPiece, hresolve]
  simp [Except.map, ofPieces, bind, Except.bind, pure, Except.pure]

namespace Pointer

/-- An output with a path is cut into the name and the path. -/
theorem splitOutput_append {name : String} (h : '.' ∉ name.toList) (path : String) :
    splitOutput (name ++ "." ++ path) = (name, some path) := by
  have htext : (name ++ "." ++ path).toList = name.toList ++ '.' :: path.toList := by simp
  rw [splitOutput, htext, Text.cut?_append h]
  simp

/-- A path into an output that is JSON is followed segment by segment. -/
theorem resolve_ofPath {results : Results} {step output : String} {outputs : Outputs}
    {captured : Captured} {data : Json} {path : List String} (houtput : Reference.IsName output)
    (hpath : Reference.AreSegments path) (hsome : path ≠ [])
    (hresults : results.lookup step = some outputs)
    (houtputs : outputs.lookup output = some captured)
    (hparse : Json.parse .strict captured.value = .ok data) :
    resolve results step (Reference.ofPath step output path).output =
      followAll (step ++ "." ++ output ++ "." ++ Text.join "." path) data path := by
  have hsplit := splitOutput_append houtput.not_mem_point (Text.join "." path)
  have hsegments : Text.splitAt '.' (Text.join "." path) = path :=
    Text.splitAt_join hsome fun segment hsegment => hpath.not_mem_point hsegment
  have hshown : step ++ "." ++ (output ++ "." ++ Text.join "." path) =
      step ++ "." ++ output ++ "." ++ Text.join "." path := by
    simp only [String.append_assoc]
  rw [resolve, hresults, Reference.ofPath]
  simp only [hsplit, houtputs, hparse, navigate, hsegments, hshown]
  rw [if_neg]
  simp

end Pointer

end Runbook
