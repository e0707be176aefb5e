import Runbook.Yaml.Fault
import Runbook.Yaml.Graph

/-!
# Taking over entries

A key of the type `merge` has a map or a list of maps as its value. Its entry is replaced by theirs,
which stand in front of the map's own entries, so that these count more. The maps that are named
take over entries themselves first, and stay changed.
-/

namespace Runbook.Yaml.Graph

/-- Whether a node has a meaning of its own as a key. -/
def isSpecial (g : Graph) (n : Nat) : Bool :=
  g.tag n == .merge || g.tag n == .value

/-- The first entry of a map whose key has a meaning of its own, and its place. -/
def special? (g : Graph) (n : Nat) : Option (Nat × Nat × Nat) :=
  ((g.entries n).zipIdx.find? fun ((key, _), _) => g.isSpecial key).map fun ((key, value), i) =>
    (i, key, value)

/-- How many entries all maps have together. -/
def countEntries (g : Graph) : Nat :=
  g.nodes.foldl (fun count node =>
    match node.content with
    | .mapping entries => count + entries.length
    | _ => count) 0

/-- Deals with the keys of a map that have a meaning of their own, one after the other; `taken` are
the entries that are taken over so far. A key that stands for a whole map is a text like others in
a map that is one. Each step but the last does away with such a key, which bounds their number. -/
def absorb : Nat → List (Nat × Nat) → Nat → Graph → Except Fault Graph
  | 0, _, _, _ => .error .malformed
  | fuel + 1, taken, n, g =>
    match g.special? n with
    | none => .ok (if taken.isEmpty then g else g.setContent n (.mapping (taken ++ g.entries n)))
    | some (i, key, source) =>
      if g.tag key == .value then absorb fuel taken n (g.setTag key .text)
      else
        let g := g.setContent n (.mapping ((g.entries n).eraseIdx i))
        match g.content source with
        | .mapping _ => do
          let g ← absorb fuel [] source g
          absorb fuel (taken ++ g.entries source) n g
        | .sequence items => do
          let (parts, g) ← items.foldlM
            (fun (parts, g) item =>
              match g.content item with
              | .mapping _ => do
                let g ← absorb fuel [] item g
                return (g.entries item :: parts, g)
              | _ => .error .malformed)
            (([] : List (List (Nat × Nat))), g)
          -- The last of equal keys counts, so the entries of the first map stand last.
          absorb fuel (taken ++ parts.flatten) n g
        | .scalar _ => .error .malformed

/-- The graph after a map has taken over entries. -/
def flatten (g : Graph) (n : Nat) : Except Fault Graph :=
  if (g.special? n).isSome then absorb (g.countEntries + 1) [] n g else .ok g

end Runbook.Yaml.Graph
