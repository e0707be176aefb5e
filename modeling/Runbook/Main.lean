import Runbook.CommandLine.Expand
import Runbook.CommandLine.Perform

/-!
# The program

Carries out commands on the files of the system. The part of the file tree that a command may touch
is read beforehand, and what the command changes in it is written afterwards. The program brings no
modules of operations of its own.
-/

namespace Runbook.Program

/-- What the program can be asked to do. -/
def usage : String :=
  "usage: runbook run WORKFLOW [--operations MODULE] [--dry-run] [--no-write]\n" ++
  "                   [--summary none|json|markdown] [--summary-file PATH]\n" ++
  "                   [--debug] [--quiet] [--verbose] [--log-level debug|info|warn|error]\n" ++
  "       runbook validate WORKFLOW [--debug] [--quiet] [--verbose] [--log-level LEVEL]\n" ++
  "       runbook expand --in FILE --out FILE [--max-depth DEPTH] [NAME=VALUE ...]\n"

/-- The number by which the system says that a directory was read as if it were a file. -/
def directoryCode : UInt32 := 21

/-- What stands at a place of the system, if anything. -/
def nodeAt (place : List String) : IO (Option Node) := do
  try
    let content ← IO.FS.readBinFile (Path.text ⟨.single, place⟩)
    return some (.file content.toList)
  catch e =>
    match e with
    | .inappropriateType _ code _ => return if code == directoryCode then some .directory else none
    | _ => return none

/-- The places on the way to a path. -/
def placesOn (current p : Path) : List (List String) :=
  let parts := (current.under p).parts
  (List.range (parts.length + 1)).map fun n => Path.collapseParts (parts.take n)

/-- Adds what stands on the way to paths to a file tree. -/
def withPaths (tree : FileTree) (paths : List Path) : IO FileTree := do
  let places := (paths.filter (!·.holdsNull)).flatMap (placesOn tree.currentPath)
  let mut tree := tree
  for place in places do
    if (tree.get? place).isNone then
      match ← nodeAt place with
      | some node => tree := tree.put place node
      | none => pure ()
  return tree

/-- The file tree with nothing but the current directory. -/
def currentTree : IO FileTree := do
  let current := Path.ofText (← IO.currentDir).toString
  return FileTree.ofCurrent current.parts

/-- Writes what has changed in a file tree. -/
def writeChanges (before after : FileTree) : IO Unit := do
  for (place, node) in after.nodes do
    unless before.get? place == some node do
      let name := Path.text ⟨.single, place⟩
      match node with
      | .directory => IO.FS.createDirAll name
      | .file content => IO.FS.writeBinFile name (ByteArray.mk content.toArray)

/-- Tells why a command is not carried out. -/
def refuse (refusal : CommandLine.Refusal) : IO UInt32 := do
  match refusal with
  | .fault fault => IO.eprintln s!"{usage}error: {fault.message}"
  | _ => IO.print usage
  return refusal.exitCode.toUInt32

/-- The exit code that a command ends with; trouble is told. -/
def finish (ending : Except CommandLine.Trouble Nat) : IO UInt32 := do
  match ending with
  | .ok code => return code.toUInt32
  | .error trouble =>
    IO.eprintln trouble.message
    return 1

/-- The paths that running a workflow may write to. -/
def destinations (tree : FileTree) (c : CommandLine.Command) : List Path :=
  match (Document.loadFile tree (Path.ofText c.workflow)).outcome with
  | .ok w => (w.steps.filterMap Step.outputFilePath).map w.destination
  | .error _ => []

/-- Carries out a command on a workflow. -/
def perform (c : CommandLine.Command) : IO UInt32 := do
  let summary := c.options.summaryFile.toList.map Path.ofText
  let start ← withPaths (← currentTree) (Path.ofText c.workflow :: summary)
  let tree ← withPaths start (destinations start c)
  let outcome := c.perform ([] : Catalogue Unit) tree ()
  writeChanges tree outcome.tree
  for entry in outcome.log.atLeast c.options.verbosity.threshold do
    IO.eprintln s!"{entry.level.name} - {entry.message}"
  IO.print outcome.shown
  finish outcome.ending

/-- Expands a file. -/
def expand (c : CommandLine.Expand) : IO UInt32 := do
  let tree ← withPaths (← currentTree) [Path.ofText c.source, Path.ofText c.target]
  let expansion := c.perform tree
  writeChanges tree expansion.tree
  IO.eprint expansion.complaint
  finish expansion.ending

end Runbook.Program

/-- Carries out the command that the arguments give. -/
def main (arguments : List String) : IO UInt32 := do
  match arguments with
  | "expand" :: rest =>
    match Runbook.CommandLine.Expand.ofArguments rest with
    | .ok c => Runbook.Program.expand c
    | .error refusal => Runbook.Program.refuse refusal
  | arguments =>
    match Runbook.CommandLine.Command.ofArguments arguments with
    | .ok c => Runbook.Program.perform c
    | .error refusal => Runbook.Program.refuse refusal
