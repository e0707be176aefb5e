import Runbook.Path
import Runbook.Text.Quoted
import Runbook.Text.Utf8

/-!
# File trees

A tree of files and directories, with a current directory, on which files are read and written and
directories made. A name of two points leads to the parent directory. A file that is opened to be
written is empty at first, and the storage may then take less than was to be written to it. Failures
carry the number and the wording that the system gives them.
-/

namespace Runbook

/-- What stands at a place in a file tree. -/
inductive Node where
  /-- A regular file with its octets. -/
  | file (content : List UInt8)
  /-- A directory. -/
  | directory
  deriving DecidableEq, Repr, Inhabited

/-- Why the system refuses what is asked of it. -/
inductive FileTree.Errno where
  /-- Nothing stands there. -/
  | notFound
  /-- Something stands there already. -/
  | exists
  /-- A name on the way belongs to a file. -/
  | notDirectory
  /-- A directory stands there. -/
  | isDirectory
  /-- A name or the whole path is too long. -/
  | nameTooLong
  /-- The device fails. -/
  | deviceFailure
  /-- The file becomes larger than files may be. -/
  | fileTooLarge
  /-- The storage is full. -/
  | noSpace
  /-- The part of the storage that the user may fill is full. -/
  | quotaExceeded
  deriving DecidableEq, Repr

/-- How the storage cuts a file short. -/
structure Cut where
  /-- How many octets it takes. -/
  kept : Nat
  /-- Why it does not take the others. -/
  reason : FileTree.Errno
  deriving DecidableEq, Repr

/-- A tree of files. Places are lists of names from the root directory, which is always there. -/
structure FileTree where
  /-- What stands at which place. -/
  nodes : List (List String × Node)
  /-- The place of the current directory. -/
  current : List String
  /-- What the storage does to the files that are written next, one after the other: it takes them
  to their end or cuts them short. Files after these are taken to their end. -/
  storage : List (Option Cut) := []
  deriving Repr, Inhabited

namespace FileTree

/-- The number of a reason. -/
def Errno.number : Errno → Nat
  | .notFound => 2
  | .exists => 17
  | .notDirectory => 20
  | .isDirectory => 21
  | .nameTooLong => 36
  | .deviceFailure => 5
  | .fileTooLarge => 27
  | .noSpace => 28
  | .quotaExceeded => 122

/-- The wording of a reason. -/
def Errno.phrase : Errno → String
  | .notFound => "No such file or directory"
  | .exists => "File exists"
  | .notDirectory => "Not a directory"
  | .isDirectory => "Is a directory"
  | .nameTooLong => "File name too long"
  | .deviceFailure => "Input/output error"
  | .fileTooLarge => "File too large"
  | .noSpace => "No space left on device"
  | .quotaExceeded => "Disk quota exceeded"

/-- Why something could not be done with a file. -/
inductive Error where
  /-- The system refuses it. The path is told, unless the file is open already. -/
  | refused (errno : Errno) (path : Option Path)
  /-- The path holds the null character. -/
  | nullCharacter
  deriving DecidableEq, Repr

/-- The wording of an error. -/
def Error.message : Error → String
  | .refused errno (some path) =>
    s!"[Errno {errno.number}] {errno.phrase}: {Text.quoted path.text}"
  | .refused errno none => s!"[Errno {errno.number}] {errno.phrase}"
  | .nullCharacter => "embedded null byte"

/-- What stands at a place. -/
def get? (t : FileTree) (place : List String) : Option Node :=
  if place = [] then some .directory else t.nodes.lookup place

/-- Puts something at a place. -/
def put (t : FileTree) (place : List String) (node : Node) : FileTree :=
  { t with nodes := putNode t.nodes }
where
  /-- Replaces what stands at the place, or adds the place. -/
  putNode : List (List String × Node) → List (List String × Node)
    | [] => [(place, node)]
    | (p, n) :: rest => if p = place then (p, node) :: rest else (p, n) :: putNode rest

/-- The longest name, in octets. -/
def maxName : Nat := 255

/-- The longest path, in octets. -/
def maxPath : Nat := 4095

/-- Goes from one directory through names to another. -/
def walk (t : FileTree) : List String → List String → Except Errno (List String)
  | place, [] => .ok place
  | place, name :: names =>
    -- What stands before the two points has been found to be a directory.
    if name = ".." then walk t place.dropLast names
    else if maxName < name.utf8ByteSize then .error .nameTooLong
    else
      match t.get? (place ++ [name]) with
      | none => .error .notFound
      | some (.file _) => .error .notDirectory
      | some .directory => walk t (place ++ [name]) names

/-- Where the last name of a path leads. -/
inductive Target where
  /-- To a directory by another way than by a name in it. -/
  | directory (place : List String)
  /-- To a name in a directory. -/
  | entry (place : List String)
  deriving DecidableEq, Repr

/-- Finds where a path leads without asking what stands there. -/
def locate (t : FileTree) (p : Path) : Except Errno Target :=
  let start := if p.isAbsolute then [] else t.current
  if maxPath < p.text.utf8ByteSize then .error .nameTooLong
  else
    match t.walk start p.parts.dropLast with
    | .error errno => .error errno
    | .ok place =>
      match p.parts.getLast? with
      | none => .ok (.directory place)
      | some name =>
        if name = ".." then .ok (.directory place.dropLast)
        else if maxName < name.utf8ByteSize then .error .nameTooLong
        else .ok (.entry (place ++ [name]))

/-- What a path leads to. -/
def lookup (t : FileTree) (p : Path) : Except Errno Node :=
  match t.locate p with
  | .error errno => .error errno
  | .ok (.directory _) => .ok .directory
  | .ok (.entry place) =>
    match t.get? place with
    | none => .error .notFound
    | some node => .ok node

/-- Whether something stands where a path leads. A path that the system refuses for its length is an
error, every other one that leads nowhere is not. -/
def present (t : FileTree) (p : Path) : Except Error Bool :=
  if p.holdsNull then .ok false
  else
    match t.lookup p with
    | .ok _ => .ok true
    | .error .nameTooLong => .error (.refused .nameTooLong (some p))
    | .error _ => .ok false

/-- The octets of the file that a path leads to. -/
def read (t : FileTree) (p : Path) : Except Error (List UInt8) :=
  if p.holdsNull then .error .nullCharacter
  else
    match t.lookup p with
    | .ok (.file content) => .ok content
    | .ok .directory => .error (.refused .isDirectory (some p))
    | .error errno => .error (.refused errno (some p))

/-- The place of the file that is opened to be written, whether it is there or not. -/
def openFile (t : FileTree) (p : Path) : Except Error (List String) :=
  if p.holdsNull then .error .nullCharacter
  else
    match t.locate p with
    | .error errno => .error (.refused errno (some p))
    | .ok (.directory _) => .error (.refused .isDirectory (some p))
    | .ok (.entry place) =>
      match t.get? place with
      | some .directory => .error (.refused .isDirectory (some p))
      | _ => .ok place

/-- How the storage cuts the next file short, if it does. -/
def cut? (t : FileTree) : Option Cut :=
  t.storage.head?.join

/-- Writes the file that was opened at a place. What it held is gone, also when the storage cuts it
short; the error comes with the files as they are left then. -/
def fill (t : FileTree) (place : List String) (content : List UInt8) :
    Except (Error × FileTree) FileTree :=
  let opened := { t with storage := t.storage.tail }
  match t.cut? with
  | none => .ok (opened.put place (.file content))
  | some cut => .error (.refused cut.reason none, opened.put place (.file (content.take cut.kept)))

/-- Writes the file that a path leads to, whether it was there or not. An error comes with the files
as they are left then. -/
def write (t : FileTree) (p : Path) (content : List UInt8) : Except (Error × FileTree) FileTree :=
  match t.openFile p with
  | .error e => .error (e, t)
  | .ok place => t.fill place content

/-- Makes one directory. -/
def makeOne (t : FileTree) (p : Path) : Except Errno FileTree :=
  match t.locate p with
  | .error errno => .error errno
  | .ok (.directory _) => .error .exists
  | .ok (.entry place) =>
    match t.get? place with
    | some _ => .error .exists
    | none => .ok (t.put place .directory)

/-- Makes one directory, and is content if it is there. -/
def makeIfAbsent (t : FileTree) (p : Path) : Except Errno FileTree :=
  match t.makeOne p with
  | .ok t => .ok t
  | .error .notFound => .error .notFound
  | .error errno =>
    match t.lookup p with
    | .ok .directory => .ok t
    | _ => .error errno

/-- Makes the directory that a path of at most `depth` names leads to and those on the way to it,
and is content with those that are there. When it fails it tells at which path, and the directories
made before stay. -/
def makeAll : Nat → FileTree → Path → FileTree × Option (Errno × Path)
  | depth, t, p =>
    match t.makeIfAbsent p, depth with
    | .ok t, _ => (t, none)
    -- Only a missing parent can be mended; after that the directory is tried once more.
    | .error .notFound, depth + 1 =>
      match makeAll depth t p.parent with
      | (t, some failure) => (t, some failure)
      | (t, none) =>
        match t.makeIfAbsent p with
        | .ok t => (t, none)
        | .error errno => (t, some (errno, p))
    | .error errno, _ => (t, some (errno, p))

/-- Makes the directory that a path leads to and those on the way to it. -/
def makeDirectories (t : FileTree) (p : Path) : FileTree × Option Error :=
  if p.holdsNull then (t, some .nullCharacter)
  else
    match makeAll p.parts.length t p with
    | (t, none) => (t, none)
    | (t, some (errno, path)) => (t, some (.refused errno (some path)))

/-- A tree that holds only a current directory and those on the way to it. -/
def ofCurrent (current : List String) : FileTree :=
  { nodes := (List.range current.length).map fun n => (current.take (n + 1), .directory)
    current := current }

/-- The path of the current directory. -/
def currentPath (t : FileTree) : Path := ⟨.single, t.current⟩

/-- A path from the root directory, without names of two points. -/
def resolve (t : FileTree) (p : Path) : Path :=
  Path.resolve t.currentPath p

end FileTree

end Runbook
