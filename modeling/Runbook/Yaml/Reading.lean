import Runbook.Yaml.Graph
import Runbook.Yaml.Token

/-!
# From tokens to nodes

The nodes that the tokens of a document make up. An alias is the node that it names, which may be
one around it. A fault of the text counts once its place is looked at; a fault of the tokens before
that place goes first.
-/

namespace Runbook.Yaml

/-- How far the tokens of a document have been read. -/
structure Reading where
  /-- The tokens that are left. -/
  tokens : List Token
  /-- How many nodes have begun. -/
  count : Nat := 0
  /-- The nodes that have ended, with their numbers, the last one first. -/
  ended : List (Nat × Node) := []
  /-- The collections that have begun and not ended. -/
  opened : List Nat := []
  /-- The nodes that have names. -/
  anchors : List (String × Nat) := []
  /-- Whether an alias has named a collection around it. -/
  isCyclic : Bool := false

/-- What handles stand for in tags. -/
abbrev Handles := List (String × String)

namespace Reading

/-- Something that has been read, and how far. -/
abbrev Read (α : Type) := α × Reading

/-- The fault of the token that stands next: its own, or that it stands there. -/
def unexpected (r : Reading) : Fault :=
  match r.tokens with
  | .fault f :: _ => f
  | _ => .malformed

/-- Whether the next token is one of some. -/
def next (r : Reading) (ts : List Token) : Bool :=
  match r.tokens with
  | t :: _ => ts.contains t
  | [] => false

/-- The reading after the next token. -/
def rest (r : Reading) : Reading :=
  { r with tokens := r.tokens.drop 1 }

/-- Gives the node that begins next a name, which must be new. -/
def name (r : Reading) (anchor : Option String) : Except Fault Reading :=
  match anchor with
  | none => .ok r
  | some name =>
    if r.anchors.any (·.1 == name) then .error .malformed
    else .ok { r with anchors := (name, r.count) :: r.anchors }

/-- Begins a collection. -/
def enter (r : Reading) : Reading :=
  { r with count := r.count + 1, opened := r.count :: r.opened }

/-- Ends the collection that began last. -/
def leave (r : Reading) (n : Nat) (node : Node) : Reading :=
  { r with ended := (n, node) :: r.ended, opened := r.opened.drop 1 }

/-- Adds a node that ends where it begins. -/
def add (r : Reading) (node : Node) : Read Nat :=
  (r.count, { r with count := r.count + 1, ended := (r.count, node) :: r.ended })

/-- Reads an alias. -/
def follow (r : Reading) (name : String) : Except Fault (Read Nat) :=
  match r.anchors.lookup name with
  | none => .error .malformed
  | some n => .ok (n, { r.rest with isCyclic := r.isCyclic || r.opened.contains n })

/-- The properties of a node. -/
structure Properties where
  /-- The name. -/
  anchor : Option String := none
  /-- The tag as it is written. -/
  tag : Option TagText := none

/-- Reads a name and a tag, in either order. -/
def properties (r : Reading) : Except Fault (Read Properties) :=
  match r.tokens with
  | .anchor name :: .tag tag :: ts => .ok (⟨some name, some tag⟩, { r with tokens := ts })
  | .tag tag :: .anchor name :: ts => .ok (⟨some name, some tag⟩, { r with tokens := ts })
  -- After the first property the next token is looked at in search of the second.
  | .anchor _ :: .fault f :: _ => .error f
  | .tag _ :: .fault f :: _ => .error f
  | .anchor name :: ts => .ok (⟨some name, none⟩, { r with tokens := ts })
  | .tag tag :: ts => .ok (⟨none, some tag⟩, { r with tokens := ts })
  | _ => .ok ({}, r)

/-- The full tag that a written one stands for. -/
def fullTag (handles : Handles) (t : TagText) : Except Fault String :=
  match t.handle with
  | none => .ok t.suffix
  | some handle =>
    match handles.lookup handle with
    | some expansion => .ok (expansion ++ t.suffix)
    | none => .error .malformed

/-- The full tag of a node, if one is written. -/
def tagOf (handles : Handles) (p : Properties) : Except Fault (Option String) :=
  match p.tag with
  | none => .ok none
  | some t => (fullTag handles t).map some

/-- The type of a collection with a tag; the tag that is an exclamation mark alone says nothing. -/
def collectionTag (tag : Option String) (fallback : Tag) : Tag :=
  match tag with
  | none => fallback
  | some "!" => fallback
  | some t => Tag.ofText t

/-- The type of a scalar with a tag. Its characters decide if it is plain and has no tag, or if the
tag is an exclamation mark alone. -/
def scalarTag (tag : Option String) (plain : Bool) (text : String) : Tag :=
  match tag with
  | none => if plain then Tag.ofPlain text.toList else .text
  | some "!" => Tag.ofPlain text.toList
  | some t => Tag.ofText t

/-- Reads a scalar of a type. -/
def scalar (p : Properties) (tag : Tag) (text : String) (r : Reading) : Except Fault (Read Nat) :=
  (r.name p.anchor).map fun r => r.add ⟨tag, .scalar text⟩

/-- A node that holds nothing, which needs a property. -/
def emptyContent (p : Properties) (tag : Option String) (r : Reading) : Except Fault (Read Nat) :=
  if p.anchor.isSome || tag.isSome then scalar p (scalarTag tag true "") "" r
  else .error .malformed

/-- Reads a collection of a type. It has its name before what it holds is read. -/
def collection (p : Properties) (tag : Tag) (r : Reading)
    (inside : Reading → Except Fault (Read Content)) : Except Fault (Read Nat) := do
  let r ← r.name p.anchor
  let n := r.count
  let (content, r) ← inside r.enter
  return (n, r.leave n ⟨tag, content⟩)

/-- Reads a list by its items. -/
def sequence (p : Properties) (tag : Option String) (r : Reading)
    (items : Reading → Except Fault (Read (List Nat))) : Except Fault (Read Nat) :=
  collection p (collectionTag tag .sequence) r fun r =>
    (items r).map fun (ns, r) => (.sequence ns, r)

/-- Reads a map by its entries. -/
def mapping (p : Properties) (tag : Option String) (r : Reading)
    (entries : Reading → Except Fault (Read (List (Nat × Nat)))) : Except Fault (Read Nat) :=
  collection p (collectionTag tag .mapping) r fun r =>
    (entries r).map fun (es, r) => (.mapping es, r)

mutual

/-- Reads a node. `block` tells whether it may be held together by indentation, and `dashes` whether
items may follow without being indented. -/
def node (handles : Handles) (block dashes : Bool) : Nat → Reading → Except Fault (Read Nat)
  | 0, _ => .error .malformed
  | fuel + 1, r =>
    match r.tokens with
    | .alias name :: _ => r.follow name
    | _ => do
      let (p, r) ← r.properties
      let tag ← tagOf handles p
      content handles block dashes fuel p tag r

/-- Reads what a node holds after its properties. -/
def content (handles : Handles) (block dashes : Bool) :
    Nat → Properties → Option String → Reading → Except Fault (Read Nat)
  | 0, _, _, _ => .error .malformed
  | fuel + 1, p, tag, r =>
    match r.tokens with
    | .fault f :: _ => .error f
    | .blockEntry :: _ =>
      if dashes then sequence p tag r (dashItems handles fuel) else emptyContent p tag r
    | .scalar text plain :: _ => scalar p (scalarTag tag plain text) text r.rest
    | .flowSequenceStart :: _ => sequence p tag r.rest (flowItems handles true fuel)
    | .flowMappingStart :: _ => mapping p tag r.rest (flowEntries handles true fuel)
    | .blockSequenceStart :: _ =>
      if block then sequence p tag r.rest (blockItems handles fuel) else emptyContent p tag r
    | .blockMappingStart :: _ =>
      if block then mapping p tag r.rest (blockEntries handles fuel) else emptyContent p tag r
    | _ => emptyContent p tag r

/-- Reads a node unless one of some tokens follows, which leaves it empty. -/
def nodeUnless (handles : Handles) (block dashes : Bool) (stops : List Token) :
    Nat → Reading → Except Fault (Read Nat)
  | 0, _ => .error .malformed
  | fuel + 1, r =>
    if r.next stops then .ok (r.add .empty) else node handles block dashes fuel r

/-- Reads items after dashes to the end of their indentation. -/
def blockItems (handles : Handles) : Nat → Reading → Except Fault (Read (List Nat))
  | 0, _ => .error .malformed
  | fuel + 1, r =>
    match r.tokens with
    | .blockEntry :: _ => do
      let (x, r) ← nodeUnless handles true false [.blockEntry, .blockEnd] fuel r.rest
      let (xs, r) ← blockItems handles fuel r
      return (x :: xs, r)
    | .blockEnd :: _ => .ok ([], r.rest)
    | _ => .error r.unexpected

/-- Reads items after dashes that are not indented. -/
def dashItems (handles : Handles) : Nat → Reading → Except Fault (Read (List Nat))
  | 0, _ => .error .malformed
  | fuel + 1, r =>
    match r.tokens with
    | .blockEntry :: _ => do
      let (x, r) ←
        nodeUnless handles true false [.blockEntry, .key, .value, .blockEnd] fuel r.rest
      let (xs, r) ← dashItems handles fuel r
      return (x :: xs, r)
    | _ => .ok ([], r)

/-- Reads the value after a colon, or an empty one if there is no colon. -/
def valueUnless (handles : Handles) (block : Bool) (stops : List Token) :
    Nat → Reading → Except Fault (Read Nat)
  | 0, _ => .error .malformed
  | fuel + 1, r =>
    match r.tokens with
    | .value :: _ => nodeUnless handles block block stops fuel r.rest
    | _ => .ok (r.add .empty)

/-- Reads entries to the end of their indentation. -/
def blockEntries (handles : Handles) : Nat → Reading → Except Fault (Read (List (Nat × Nat)))
  | 0, _ => .error .malformed
  | fuel + 1, r =>
    match r.tokens with
    | .key :: _ => do
      let stops := [Token.key, .value, .blockEnd]
      let (k, r) ← nodeUnless handles true true stops fuel r.rest
      let (v, r) ← valueUnless handles true stops fuel r
      let (rest, r) ← blockEntries handles fuel r
      return ((k, v) :: rest, r)
    | .blockEnd :: _ => .ok ([], r.rest)
    | _ => .error r.unexpected

/-- Reads items to a closing bracket; every item but the `first` follows a comma. -/
def flowItems (handles : Handles) (first : Bool) :
    Nat → Reading → Except Fault (Read (List Nat))
  | 0, _ => .error .malformed
  | fuel + 1, r =>
    if r.next [.flowSequenceEnd] then .ok ([], r.rest)
    else if first || r.next [.flowEntry] then do
      let r := if first then r else r.rest
      match r.tokens with
      | .flowSequenceEnd :: _ => return ([], r.rest)
      | .key :: _ =>
        -- A key between brackets makes a map of one entry.
        let stops := [Token.flowEntry, .flowSequenceEnd]
        let (k, r) ← nodeUnless handles false false (.value :: stops) fuel r.rest
        let (v, r) ← valueUnless handles false stops fuel r
        let (x, r) := r.add ⟨.mapping, .mapping [(k, v)]⟩
        let (xs, r) ← flowItems handles false fuel r
        return (x :: xs, r)
      | _ =>
        let (x, r) ← node handles false false fuel r
        let (xs, r) ← flowItems handles false fuel r
        return (x :: xs, r)
    else .error r.unexpected

/-- Reads entries to a closing brace; every entry but the `first` follows a comma. -/
def flowEntries (handles : Handles) (first : Bool) :
    Nat → Reading → Except Fault (Read (List (Nat × Nat)))
  | 0, _ => .error .malformed
  | fuel + 1, r =>
    if r.next [.flowMappingEnd] then .ok ([], r.rest)
    else if first || r.next [.flowEntry] then do
      let r := if first then r else r.rest
      match r.tokens with
      | .flowMappingEnd :: _ => return ([], r.rest)
      | .key :: _ =>
        let stops := [Token.flowEntry, .flowMappingEnd]
        let (k, r) ← nodeUnless handles false false (.value :: stops) fuel r.rest
        let (v, r) ← valueUnless handles false stops fuel r
        let (rest, r) ← flowEntries handles false fuel r
        return ((k, v) :: rest, r)
      | _ =>
        let (k, r) ← node handles false false fuel r
        let (v, r) := r.add .empty
        let (rest, r) ← flowEntries handles false fuel r
        return ((k, v) :: rest, r)
    else .error r.unexpected

end

/-- The handles that need no directive. -/
def defaultHandles : Handles := [("!", "!"), ("!!", Tag.standard)]

/-- Reads directives before a document: at most one version, which has to be 1, and every handle at
most once. -/
def directives (versioned : Bool) (handles : Handles) :
    List Token → Except Fault (Handles × List Token)
  | .directive (.version major _) :: ts =>
    if versioned || major != 1 then .error .malformed else directives true handles ts
  | .directive (.handle handle expansion) :: ts =>
    if handles.any (·.1 == handle) then .error .malformed
    else directives versioned ((handle, expansion) :: handles) ts
  | .directive .other :: ts => directives versioned handles ts
  | ts => .ok (handles, ts)

/-- The tokens after those that end a document. -/
def dropEnds : List Token → List Token
  | .documentEnd :: ts => dropEnds ts
  | ts => ts

/-- Enough fuel to read some tokens. -/
def fuelFor (ts : List Token) : Nat :=
  4 * ts.length + 8

/-- Whether a document has no content before some tokens. -/
def endsDocument (ts : List Token) : Bool :=
  match ts with
  | [] => true
  | .directive _ :: _ => true
  | .documentStart :: _ => true
  | .documentEnd :: _ => true
  | _ => false

/-- Reads the content of a document, which may be empty. -/
def documentContent (handles : Handles) (ts : List Token) : Except Fault (Read Nat) :=
  if endsDocument ts then .ok (add { tokens := ts } .empty)
  else node handles true false (fuelFor ts) { tokens := ts }

/-- Reads the directives and the mark at the front of a document. -/
def heading (ts : List Token) : Except Fault (Handles × List Token) :=
  match directives false [] ts with
  | .error f => .error f
  | .ok (handles, .documentStart :: ts) => .ok (handles ++ defaultHandles, ts)
  | .ok (_, ts) => .error (unexpected { tokens := ts })

/-- Reads the document at the front: one without any mark, or one with directives and a mark. -/
def document (ts : List Token) : Except Fault (Read Nat) :=
  match ts with
  | .directive _ :: _ => marked ts
  | .documentStart :: _ => marked ts
  -- Without a mark there has to be content.
  | ts => node defaultHandles true false (fuelFor ts) { tokens := ts }
where
  /-- Reads a document with a mark. -/
  marked (ts : List Token) : Except Fault (Read Nat) := do
    let (handles, ts) ← heading ts
    documentContent handles ts

/-- The graph of the nodes that have been read. -/
def graph (r : Reading) : Graph :=
  .ofEnded r.count r.ended.reverse r.isCyclic

end Reading

/-- The nodes of the document that tokens make up and the number of the outermost one, if there is a
document; more than one are not accepted. -/
def Graph.ofTokens? (ts : List Token) : Except Fault (Option (Graph × Nat)) :=
  match ts with
  | [] => .ok none
  | ts => do
    let (root, r) ← Reading.document ts
    match Reading.dropEnds r.tokens with
    | [] => return some (r.graph, root)
    | ts =>
      -- The heading of a second document is read before the document is refused.
      let _ ← Reading.heading ts
      throw .malformed

end Runbook.Yaml
