import Runbook.CommandLine.Arguments
import Runbook.CommandLine.Outcome
import Runbook.Expression

/-!
# Expanding a file

The command that replaces the variable expressions in a file and writes the text to another file.
The variables are given as pairs of a name and a value with an equals sign between them; the last
pair of a name counts.
-/

namespace Runbook.CommandLine

/-- What an option of the command is for. -/
inductive ExpandMeaning where
  /-- Asks for help. -/
  | help
  /-- Names the file to read. -/
  | source
  /-- Names the file to write. -/
  | target
  /-- Gives the depth. -/
  | depth
  deriving DecidableEq, Repr

/-- The arguments of the command. -/
def expandGrammar : Grammar ExpandMeaning :=
  ⟨[⟨"-h", .help, false⟩, ⟨"--help", .help, false⟩, ⟨"--in", .source, true⟩,
    ⟨"--out", .target, true⟩, ⟨"--max-depth", .depth, true⟩], .any⟩

/-- What is understood of the arguments. -/
structure ExpandOptions where
  /-- The file to read. -/
  source : Option String := none
  /-- The file to write. -/
  target : Option String := none
  /-- How deep replacements are replaced in. -/
  depth : Int := Expression.defaultDepth
  /-- The pairs. -/
  pairs : List String := []
  deriving DecidableEq, Repr

/-- What is understood, as a piece of the arguments changes it. -/
def ExpandOptions.apply (o : ExpandOptions) :
    Item ExpandMeaning → Except Refusal ExpandOptions
  | .operand text => .ok { o with pairs := o.pairs ++ [text] }
  | .option spec value =>
    match spec.meaning, value with
    | .source, some name => .ok { o with source := some name }
    | .target, some name => .ok { o with target := some name }
    | .depth, some text =>
      match Number.readInteger 10 text with
      | .ok depth => .ok { o with depth := depth }
      | .error _ => .error (.fault (.badValue spec.name text))
    | _, _ => .error .help

/-- The command to expand a file. -/
structure Expand where
  /-- The file to read. -/
  source : String
  /-- The file to write. -/
  target : String
  /-- How deep replacements are replaced in. -/
  depth : Int
  /-- The pairs that give the variables. -/
  pairs : List String
  deriving DecidableEq, Repr

/-- Why pairs give no variables. -/
inductive PairFault where
  /-- There is no equals sign. -/
  | noSign (pair : String)
  /-- There is no name before the equals sign. -/
  | noName (pair : String)
  deriving DecidableEq, Repr

/-- The wording of a fault. -/
def PairFault.message : PairFault → String
  | .noSign pair => s!"Invalid pair (expected NAME=VALUE): {pair}"
  | .noName pair => s!"Invalid NAME in pair: {pair}"

/-- The variable that a pair gives. -/
def readPair (pair : String) : Except PairFault (String × String) :=
  match Text.cut? '=' pair.toList with
  | none => .error (.noSign pair)
  | some ([], _) => .error (.noName pair)
  | some (name, value) => .ok (String.ofList name, String.ofList value)

/-- The variables that pairs give, later ones first, so that the last pair of a name is found. -/
def readPairs (pairs : List String) : Except PairFault Expression.Table :=
  (pairs.mapM readPair).map List.reverse

/-- What comes of expanding a file. -/
structure Expansion where
  /-- The files. -/
  tree : FileTree
  /-- What is complained of. -/
  complaint : String := ""
  /-- The exit code, or the trouble that the command does not answer for. -/
  ending : Except Trouble Nat := .ok 0

namespace Expand

/-- The command that arguments give. -/
def ofArguments (arguments : List String) : Except Refusal Expand :=
  match expandGrammar.read ExpandOptions.apply {} arguments with
  | .error refusal => .error refusal
  | .ok (o, unused) =>
    match o.source, o.target, unused with
    | none, _, _ => .error (.fault (.missing "--in"))
    | _, none, _ => .error (.fault (.missing "--out"))
    | some source, some target, [] => .ok ⟨source, target, o.depth, o.pairs⟩
    | _, _, unused => .error (.fault (.unrecognized unused))

/-- Ends with a complaint. -/
def complain (tree : FileTree) (message : String) (code : Nat) : Expansion :=
  { tree := tree, complaint := message ++ "\n", ending := .ok code }

/-- Ends with trouble that nobody answers for. -/
def escape (tree : FileTree) (trouble : Trouble) : Expansion :=
  { tree := tree, ending := .error trouble }

/-- Writes the text. -/
def write (tree : FileTree) (target : Path) (content : String) : Expansion :=
  match tree.deliverText target content with
  | (tree, none) => { tree := tree }
  | (tree, some .nullCharacter) => escape tree (.file .nullCharacter)
  | (tree, some e) => complain tree s!"Failed to write output: {e.message}" 1

/-- Replaces the expressions in a text that was read, and writes the text that comes of it. -/
def replace (c : Expand) (tree : FileTree) (s : String) : Expansion :=
  -- The pairs are read after the file, so trouble with the file comes first.
  match readPairs c.pairs with
  | .error fault => complain tree fault.message 2
  | .ok table => write tree (Path.ofText c.target) (Expression.resolve table c.depth s)

/-- Carries out the command. -/
def perform (c : Expand) (tree : FileTree) : Expansion :=
  let source := Path.ofText c.source
  match tree.present source with
  | .error e => escape tree (.file e)
  | .ok false => complain tree s!"Input not found: {source.text}" 2
  | .ok true =>
    match tree.readText source with
    | .ok s => c.replace tree s
    | .error (.encoding fault) => escape tree (.encoding fault)
    | .error (.file e) => complain tree s!"Failed to read input: {e.message}" 1

end Expand

end Runbook.CommandLine
