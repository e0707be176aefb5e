/-!
# Cutting and joining texts

Splitting at characters, joining with a separator, replacing the occurrences of a token, and the one
line end that all line ends become when a text is read.
-/

namespace Runbook.Text

/-- The pieces of a text between the characters at which `cut` holds; one more than there are cuts.
-/
def splitWhere (cut : Char → Bool) : List Char → List (List Char)
  | [] => [[]]
  | c :: cs =>
    if cut c then [] :: splitWhere cut cs
    else
      match splitWhere cut cs with
      | [] => [[c]]
      | piece :: pieces => (c :: piece) :: pieces

/-- The pieces of a text between the occurrences of one character. -/
def splitAt (mark : Char) (s : String) : List String :=
  (splitWhere (· == mark) s.toList).map String.ofList

/-- What stands before and after the first occurrence of a character, if there is one. -/
def cut? (mark : Char) : List Char → Option (List Char × List Char)
  | [] => none
  | c :: cs => if c == mark then some ([], cs) else (cut? mark cs).map fun (a, b) => (c :: a, b)

/-- Texts one after the other with a separator between neighbours. -/
def joinWith (separator : List Char) : List (List Char) → List Char
  | [] => []
  | [piece] => piece
  | piece :: pieces => piece ++ separator ++ joinWith separator pieces

/-- Texts one after the other with a separator between neighbours. -/
def join (separator : String) (pieces : List String) : String :=
  String.ofList (joinWith separator.toList (pieces.map String.toList))

/-- Replaces the occurrences of a nonempty token from left to right; the next `skip` characters
belong to an occurrence that has been replaced already. -/
def replaceFrom (token new : List Char) : Nat → List Char → List Char
  | _, [] => []
  | skip + 1, _ :: cs => replaceFrom token new skip cs
  | 0, c :: cs =>
    if token.isPrefixOf (c :: cs) then new ++ replaceFrom token new (token.length - 1) cs
    else c :: replaceFrom token new 0 cs

/-- Replaces the leftmost occurrences of a nonempty token that do not overlap. -/
def replaceAll (token new : List Char) (cs : List Char) : List Char :=
  replaceFrom token new 0 cs

/-- A carriage return, with the line feed that may follow it, becomes one line feed. -/
def unifyLineEnds : List Char → List Char
  | [] => []
  | '\r' :: '\n' :: cs => '\n' :: unifyLineEnds cs
  | '\r' :: cs => '\n' :: unifyLineEnds cs
  | c :: cs => c :: unifyLineEnds cs

/-- A text without the given character at its end. -/
def dropEnd (p : Char → Bool) (cs : List Char) : List Char :=
  (cs.reverse.dropWhile p).reverse

/-- Splitting a text yields at least one piece. -/
@[simp]
theorem splitWhere_ne_nil (cut : Char → Bool) (cs : List Char) : splitWhere cut cs ≠ [] := by
  cases cs with
  | nil => simp [splitWhere]
  | cons c cs =>
    unfold splitWhere
    split
    · simp
    · split <;> simp

/-- No piece of a text that was split holds a character at which it was split. -/
theorem not_cut_of_mem_splitWhere {cut : Char → Bool} {cs piece : List Char}
    (h : piece ∈ splitWhere cut cs) : ∀ c ∈ piece, cut c = false := by
  induction cs generalizing piece with
  | nil => simp [splitWhere] at h; simp [h]
  | cons c cs ih =>
    unfold splitWhere at h
    split at h
    · rcases List.mem_cons.mp h with rfl | h
      · simp
      · exact ih h
    · rename_i hc
      split at h
      · simp at h
        subst h
        simpa using hc
      · rename_i first rest heq
        rcases List.mem_cons.mp h with rfl | h
        · intro d hd
          rcases List.mem_cons.mp hd with rfl | hd
          · simpa using hc
          · exact ih (heq ▸ List.mem_cons_self) d hd
        · exact ih (heq ▸ List.mem_cons_of_mem _ h)

end Runbook.Text
