import Runbook.Text.Split

/-!
# Paths

The text rules of paths: a path has a root or none and a list of names. Slashes that repeat or stand
at the end do not count, and neither do names that are a single point; a name of two points is kept
until a path is resolved. A path that begins with exactly two slashes has a root of its own.
-/

namespace Runbook

/-- What a path starts from. -/
inductive Root where
  /-- The current directory. -/
  | relative
  /-- The root directory. -/
  | single
  /-- The root that two slashes stand for. -/
  | double
  deriving DecidableEq, Repr, Inhabited

/-- A path. -/
structure Path where
  /-- What the path starts from. -/
  root : Root
  /-- The names on the path. -/
  parts : List String
  deriving DecidableEq, Repr, Inhabited

namespace Path

/-- The root that a text begins with. -/
def rootOf : List Char → Root
  | '/' :: '/' :: '/' :: _ => .single
  | '/' :: '/' :: _ => .double
  | '/' :: _ => .single
  | _ => .relative

/-- A name that a path keeps. -/
def isPart (name : String) : Bool :=
  name != "" && name != "."

/-- The path that a text denotes. -/
def ofText (s : String) : Path :=
  ⟨rootOf s.toList, (Text.splitAt '/' s).filter isPart⟩

/-- The characters of a root. -/
def rootText : Root → String
  | .relative => ""
  | .single => "/"
  | .double => "//"

/-- The text of a path; the current directory is a point. -/
def text (p : Path) : String :=
  if p.root = .relative ∧ p.parts = [] then "."
  else rootText p.root ++ Text.join "/" p.parts

/-- Whether a path starts from a root. -/
def isAbsolute (p : Path) : Bool :=
  p.root != .relative

/-- A path as seen from another one: an absolute path is itself. -/
def under (base p : Path) : Path :=
  if p.isAbsolute then p else ⟨base.root, base.parts ++ p.parts⟩

/-- The path without its last name. -/
def parent (p : Path) : Path :=
  ⟨p.root, p.parts.dropLast⟩

/-- The names that remain when each pair of two points takes away the name before it. -/
def collapseParts (parts : List String) : List String :=
  parts.foldl (fun done name => if name = ".." then done.dropLast else done ++ [name]) []

/-- The path seen from a current directory, without names of two points. -/
def resolve (current p : Path) : Path :=
  ⟨.single, collapseParts (current.under p).parts⟩

/-- The names that lead from a base to a path that is the base or lies beneath it. -/
def relativeTo? (base p : Path) : Option Path :=
  if base.root = p.root ∧ base.parts.isPrefixOf p.parts then
    some ⟨.relative, p.parts.drop base.parts.length⟩
  else none

/-- Whether a path holds the null character, which no file name may hold. -/
def holdsNull (p : Path) : Bool :=
  p.parts.any fun name => name.toList.contains '\x00'

end Path

end Runbook
