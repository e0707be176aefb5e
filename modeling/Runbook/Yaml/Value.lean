import Runbook.Value.Nesting
import Runbook.Yaml.Layout
import Runbook.Yaml.Merge
import Runbook.Yaml.Reading
import Runbook.Yaml.Scalar

/-!
# Values of documents

The value of a document is found in two steps. A survey goes through the nodes level by level, finds
the values of the scalars and lets maps take over entries; of several faults it tells the outermost,
and of those at one level the first. Then every collection is put together from the values of the
nodes within it, which have ended before it.
-/

namespace Runbook.Yaml

/-- What stands for a collection of a type before its members are known; other types have scalars as
values. -/
def Tag.emptyValue? : Tag → Option Value
  | .sequence => some (.list [])
  | .mapping => some (.map [])
  | .set => some (.set [])
  | .pairs => some (.list [])
  | _ => none

/-- A type whose values are not known. -/
def Tag.isUnknown : Tag → Bool
  | .merge => true
  | .value => true
  | .other => true
  | _ => false

namespace Graph

/-- The characters that a node gives where a scalar is called for: its own, or those of the value
under the key that stands for the whole map. The fuel bounds how many maps stand for one another. -/
def text (g : Graph) : Nat → Nat → Except Fault String
  | 0, _ => .error .endless
  | fuel + 1, n =>
    match g.content n with
    | .scalar s => .ok s
    | .sequence _ => .error .malformed
    | .mapping entries =>
      match entries.find? fun (key, _) => g.tag key == .value with
      | some (_, value) => g.text fuel value
      | none => .error .malformed

/-- The value of a node that is a scalar by its type. -/
def scalar (g : Graph) (n : Nat) : Except Fault Value :=
  if (g.tag n).isUnknown then .error .malformed
  else do
    let s ← g.text (g.nodes.size + 1) n
    match g.tag n, g.content n with
    | .timestamp, .mapping _ => throw .momentOfMap
    | tag, _ => scalarValue tag s

/-- Whether a node is a word for the value that is no number. -/
def isNanWord (g : Graph) (n : Nat) : Bool :=
  g.tag n == .real && (g.text (g.nodes.size + 1) n).toOption.any namesNaN

end Graph

/-- What is known of the values of a document. -/
structure Survey where
  /-- The nodes, with the entries that maps have taken over. -/
  graph : Graph
  /-- The values of the scalars found so far, and empty collections for those that are found. -/
  values : Array (Option Value)
  /-- The scalars that are words for the value that is no number: they are all the same key. -/
  nanWords : List Nat := []
  /-- The collections that are still to be looked into, the last one first. -/
  pending : List Nat := []

namespace Survey

/-- Finds a node. A collection is looked into later. -/
def visit (s : Survey) (n : Nat) : Except Fault Survey :=
  if (s.values.getD n none).isSome then .ok s
  else
    match (s.graph.tag n).emptyValue? with
    | some v => .ok { s with values := s.values.setIfInBounds n v, pending := n :: s.pending }
    | none => do
      let v ← s.graph.scalar n
      let words := if s.graph.isNanWord n then n :: s.nanWords else s.nanWords
      return { s with values := s.values.setIfInBounds n v, nanWords := words }

/-- Finds a key and its value. A collection is no key. -/
def visitEntry (s : Survey) (entry : Nat × Nat) : Except Fault Survey := do
  let s ← s.visit entry.1
  if (s.graph.tag entry.1).emptyValue?.isSome then throw .malformed
  s.visit entry.2

/-- Finds the parts of a pair, which is a map of one entry. -/
def visitPair (s : Survey) (n : Nat) : Except Fault Survey :=
  match s.graph.content n with
  | .mapping [(key, value)] => do
    let s ← s.visit key
    s.visit value
  | _ => .error .malformed

/-- Finds the members of a map or set. -/
def visitEntries (s : Survey) (n : Nat) : Except Fault Survey := do
  let graph ← s.graph.flatten n
  (graph.entries n).foldlM visitEntry { s with graph := graph }

/-- Looks into a collection. -/
def lookInto (s : Survey) (n : Nat) : Except Fault Survey :=
  match s.graph.tag n, s.graph.content n with
  | .sequence, .sequence items => items.foldlM visit s
  | .pairs, .sequence items => items.foldlM visitPair s
  | .mapping, .mapping _ => s.visitEntries n
  | .set, .mapping _ => s.visitEntries n
  | _, _ => .error .malformed

/-- Looks into the collections that are found, level by level, as many levels deep as the fuel
tells. -/
def levels : Nat → Survey → Except Fault Survey
  | 0, s => .ok s
  | fuel + 1, s =>
    if s.pending.isEmpty then .ok s
    else do
      let next ← s.pending.reverse.foldlM lookInto { s with pending := [] }
      levels fuel next

/-- The survey of a document, from its outermost node on. -/
def ofGraph (g : Graph) (root : Nat) : Except Fault Survey := do
  let s ← visit { graph := g, values := Array.replicate g.nodes.size none } root
  s.levels (g.nodes.size + 1)

/-- Whether two nodes are the same key: one node, or nodes whose values are the same key. -/
def sameKey (s : Survey) (a b : Nat) : Bool :=
  a == b || (s.nanWords.contains a && s.nanWords.contains b) ||
    match s.values.getD a none, s.values.getD b none with
    | some v, some w => v.sameKey w
    | _, _ => false

/-- Puts an entry into a map: a key that is there already keeps its place and takes the new value,
a new key comes last. -/
def putEntry (s : Survey) (key value : Nat) : List (Nat × Nat) → List (Nat × Nat)
  | [] => [(key, value)]
  | (k, v) :: rest =>
    if s.sameKey k key then (k, value) :: rest else (k, v) :: s.putEntry key value rest

/-- The entries of a map, of equal keys the first with the value of the last. -/
def entries (s : Survey) (n : Nat) : List (Nat × Nat) :=
  (s.graph.entries n).foldl (fun done (key, value) => s.putEntry key value done) []

/-- Keeps one entry of a map for each of its keys. -/
def collapse (s : Survey) : Survey :=
  { s with
    graph := s.graph.ended.foldl
      (fun g n =>
        match g.content n with
        | .mapping _ => g.setContent n (.mapping (s.entries n))
        | _ => g)
      s.graph }

/-- The value of a node, from values of the nodes within it. -/
def build (s : Survey) (values : Array Value) (n : Nat) : Value :=
  let value (n : Nat) : Value := values.getD n .null
  match s.graph.tag n, s.graph.content n with
  | .sequence, .sequence items => .list (items.map value)
  | .pairs, .sequence items =>
    .list (items.map fun item =>
      .tuple ((s.graph.entries item).flatMap fun (k, v) => [value k, value v]))
  | .mapping, .mapping entries => .map (entries.map fun (k, v) => (value k, value v))
  | .set, .mapping entries => .set (entries.map fun (k, _) => value k)
  | _, _ => value n

/-- The values of all nodes, from values of which those of collections need not be right. -/
def buildAll (s : Survey) (values : Array Value) : Array Value :=
  s.graph.ended.foldl (fun values n => values.setIfInBounds n (s.build values n)) values

/-- The values of all nodes. A collection that stands within itself is unfolded beyond the depth
limit. -/
def table (s : Survey) : Array Value :=
  let s := s.collapse
  let start := s.values.map (·.getD .null)
  if s.graph.isCyclic then
    (List.range (Value.depthLimit + 1)).foldl (fun values _ => s.buildAll values) start
  else s.buildAll start

end Survey

/-- The value of the document with some nodes. -/
def Graph.value (g : Graph) (root : Nat) : Except Fault Value :=
  (Survey.ofGraph g root).map fun s => s.table.getD root .null

/-- A character that a document may hold. -/
def isAccepted (c : Char) : Bool :=
  let n := c.toNat
  n == 9 || n == 10 || n == 13 || (0x20 ≤ n && n ≤ 0x7E) || n == 0x85 ||
    (0xA0 ≤ n && n ≤ 0xD7FF) || (0xE000 ≤ n && n ≤ 0xFFFD) ||
    (0x10000 ≤ n && (Text.half? c).isNone)

/-- The value of the document that a text holds; an empty text holds null. -/
def load (s : String) : Except Fault Value :=
  if s.toList.all isAccepted then
    match Graph.ofTokens? (Token.ofText s) with
    | .error f => .error f
    | .ok none => .ok .null
    | .ok (some (g, root)) => g.value root
  else .error .malformed

end Runbook.Yaml
