import Runbook.FileTree
import Runbook.Text.Split
import Runbook.Text.Utf8

/-!
# Text files

Files that hold a text in UTF-8. Every line end that is read becomes a line feed; what is written is
left as it is.
-/

namespace Runbook

/-- Why no text could be read from a file. -/
inductive TextFault where
  /-- The file could not be read. -/
  | file (error : FileTree.Error)
  /-- The octets of the file are no text. -/
  | encoding (fault : Text.Utf8.Fault)
  deriving DecidableEq, Repr

/-- The wording of a fault. -/
def TextFault.message : TextFault → String
  | .file error => error.message
  | .encoding fault => fault.message

namespace FileTree

/-- The text of the file that a path leads to. -/
def readText (t : FileTree) (p : Path) : Except TextFault String :=
  match t.read p with
  | .error error => .error (.file error)
  | .ok content =>
    match Text.Utf8.decode content with
    | .error fault => .error (.encoding fault)
    | .ok s => .ok (String.ofList (Text.unifyLineEnds s.toList))

/-- Writes a text to the file that a path leads to. An error comes with the files as they are left
then. -/
def writeText (t : FileTree) (p : Path) (s : String) : Except (Error × FileTree) FileTree :=
  t.write p (Text.Utf8.encode s)

/-- Makes the directory that a file is to stand in and writes a text to the file. Directories that
were made stay, also if the file cannot be written, and so does what the storage has taken of it. -/
def deliverText (t : FileTree) (p : Path) (s : String) : FileTree × Option Error :=
  match t.makeDirectories p.parent with
  | (t, some e) => (t, some e)
  | (t, none) =>
    match t.writeText p s with
    | .ok t => (t, none)
    | .error (e, t) => (t, some e)

end FileTree

end Runbook
