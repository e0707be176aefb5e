import Runbook.Yaml.Fault

/-!
# Tokens

What a YAML document is made of: the marks of documents and collections, properties of nodes, and
scalars. Indentation appears as marks where block collections start and end.
-/

namespace Runbook.Yaml

/-- A line of directions before a document. -/
inductive Directive where
  /-- The version of the language. -/
  | version (major minor : Nat)
  /-- What a handle stands for in tags. -/
  | handle (handle expansion : String)
  /-- A direction of no meaning here. -/
  | other
  deriving DecidableEq, Repr

/-- A tag as it is written. -/
structure TagText where
  /-- The handle, unless the tag is written in full. -/
  handle : Option String
  /-- What follows the handle. -/
  suffix : String
  deriving DecidableEq, Repr

/-- A token. -/
inductive Token where
  /-- A line of directions. -/
  | directive (directive : Directive)
  /-- The start of a document. -/
  | documentStart
  /-- The end of a document. -/
  | documentEnd
  /-- The start of a list that indentation holds together. -/
  | blockSequenceStart
  /-- The start of a map that indentation holds together. -/
  | blockMappingStart
  /-- The end of a collection that indentation holds together. -/
  | blockEnd
  /-- An opening bracket. -/
  | flowSequenceStart
  /-- A closing bracket. -/
  | flowSequenceEnd
  /-- An opening brace. -/
  | flowMappingStart
  /-- A closing brace. -/
  | flowMappingEnd
  /-- A dash before an item. -/
  | blockEntry
  /-- A comma between items or entries. -/
  | flowEntry
  /-- The start of a key, written as a question mark or told by the colon after the key. -/
  | key
  /-- The colon before a value. -/
  | value
  /-- A node given by the name of another one. -/
  | alias (name : String)
  /-- The name of the node that follows. -/
  | anchor (name : String)
  /-- The tag of the node that follows. -/
  | tag (tag : TagText)
  /-- A scalar, which is plain if it stands without quotes on lines of other things. -/
  | scalar (text : String) (plain : Bool)
  /-- A fault at which the text could not be read further. -/
  | fault (fault : Fault)
  deriving DecidableEq, Repr

end Runbook.Yaml
