import Runbook.Yaml.Tag

/-!
# Graphs of nodes

The nodes of a document under numbers. A collection holds the numbers of the nodes within it, so
that a node with several places in the document is there once, and may even stand within itself.
-/

namespace Runbook.Yaml

/-- What a node holds; other nodes are given by their numbers. -/
inductive Content where
  /-- Characters. -/
  | scalar (text : String)
  /-- Nodes in order. -/
  | sequence (items : List Nat)
  /-- Keys and values in order. -/
  | mapping (entries : List (Nat × Nat))
  deriving DecidableEq, Repr

/-- A node of a document. -/
structure Node where
  /-- The type. -/
  tag : Tag
  /-- What the node holds. -/
  content : Content
  deriving DecidableEq, Repr

/-- A node that is written as nothing. -/
def Node.empty : Node := ⟨.null, .scalar ""⟩

/-- The nodes of a document. -/
structure Graph where
  /-- The nodes by their numbers, in the order in which they begin. -/
  nodes : Array Node := #[]
  /-- The numbers of the nodes in the order in which they end: the nodes within a node before it,
  apart from those that it stands in itself. -/
  ended : List Nat := []
  /-- Whether some node stands within itself. -/
  isCyclic : Bool := false
  deriving Repr

namespace Graph

/-- The graph of as many nodes as counted, from the nodes and their numbers in the order in which
they end. -/
def ofEnded (count : Nat) (ended : List (Nat × Node)) (isCyclic : Bool) : Graph where
  nodes := ended.foldl (fun nodes (n, node) => nodes.setIfInBounds n node)
    (Array.replicate count .empty)
  ended := ended.map Prod.fst
  isCyclic := isCyclic

/-- The node with a number. -/
def node (g : Graph) (n : Nat) : Node :=
  g.nodes.getD n .empty

/-- The type of the node with a number. -/
def tag (g : Graph) (n : Nat) : Tag :=
  (g.node n).tag

/-- The content of the node with a number. -/
def content (g : Graph) (n : Nat) : Content :=
  (g.node n).content

/-- The entries of a map; other nodes have none. -/
def entries (g : Graph) (n : Nat) : List (Nat × Nat) :=
  match g.content n with
  | .mapping entries => entries
  | _ => []

/-- Gives a node another type. -/
def setTag (g : Graph) (n : Nat) (tag : Tag) : Graph :=
  { g with nodes := g.nodes.modify n fun node => { node with tag := tag } }

/-- Gives a node another content. -/
def setContent (g : Graph) (n : Nat) (content : Content) : Graph :=
  { g with nodes := g.nodes.modify n fun node => { node with content := content } }

@[simp]
theorem size_setTag (g : Graph) (n : Nat) (tag : Tag) :
    (g.setTag n tag).nodes.size = g.nodes.size := by
  simp [setTag]

@[simp]
theorem size_setContent (g : Graph) (n : Nat) (content : Content) :
    (g.setContent n content).nodes.size = g.nodes.size := by
  simp [setContent]

/-- A graph has as many nodes as were counted. -/
@[simp]
theorem size_ofEnded (count : Nat) (ended : List (Nat × Node)) (isCyclic : Bool) :
    (ofEnded count ended isCyclic).nodes.size = count := by
  suffices h : ∀ nodes : Array Node,
      (ended.foldl (fun nodes (n, node) => nodes.setIfInBounds n node) nodes).size = nodes.size by
    simp [ofEnded, h]
  induction ended with
  | nil => simp
  | cons entry rest ih => simp [ih]

end Graph

end Runbook.Yaml
