import ContainerAudit.Entries
import ContainerAudit.IoError
import ContainerAudit.Live.Device
import ContainerAudit.Path.Name
import ContainerAudit.Text.Utf8

/-!
# File trees

A file tree as data, and the way from a path name to the file that it names.  A file has a
place: the names on the way to it from the root, the last one first, so that the parent of a
place is its tail.

A walk along a path name stops early at a symbolic link that it has to follow; `FileTree.walk`
then starts again at the target, at most `maxLinks` times.
-/

namespace ContainerAudit

open Text (Bytes)

/-- A file, without its name. -/
inductive FileNode where
  | directory (mode : UInt32)
  | regular (mode : UInt32) (content : Bytes)
  | link (target : Bytes)
  | fifo (mode : UInt32)
  /-- The device that has nothing to read and takes everything. -/
  | nullDevice (mode : UInt32)
deriving DecidableEq

namespace FileNode

/-- Whether a file is a directory. -/
def isDirectory : FileNode → Bool
  | directory _ => true
  | _ => false

/-- What the kernel says about a file. -/
def stat : FileNode → FileStat
  | directory mode => ⟨0o040000 ||| mode, 0, 0, 0⟩
  | regular mode _ => ⟨0o100000 ||| mode, 0, 0, 0⟩
  | link _ => ⟨0o120777, 0, 0, 0⟩
  | fifo mode => ⟨DeviceKind.fifoType ||| mode, 0, 0, 0⟩
  | nullDevice mode => ⟨DeviceKind.charType ||| mode, .ofParts 1 3, 0, 0⟩

/-- A file without what is in it.  Only regular files keep what is written to them. -/
def emptied : FileNode → FileNode
  | regular mode _ => regular mode []
  | node => node

end FileNode

/-- The names on the way from the root to a file, the last one first. -/
abbrev Place := List Bytes

/-- A file tree, and the directory where relative paths begin. -/
structure FileTree where
  nodes : List (Place × FileNode)
  cwd : Place
deriving DecidableEq

namespace FileTree

/-- The file at a place. -/
def node? (t : FileTree) (place : Place) : Option FileNode := Entries.find? id t.nodes place

/-- Whether a directory lists any file. -/
def hasEntries (t : FileTree) (place : Place) : Bool :=
  t.nodes.any fun (p, _) => !p.isEmpty && p.tail = place

/-- The path names of all files below the working directory, from there, in ascending order. -/
def listing (t : FileTree) : List String :=
  let below := t.nodes.filterMap fun (place, _) => t.cwd.reverse.isPrefixOf? place.reverse
  let paths := (below.filter (!·.isEmpty)).map fun names =>
    Text.decodeLossy ([Path.slash].intercalate names)
  paths.mergeSort fun a b => !(b < a)

/-! ## From path names to files -/

/-- How many links a walk follows. -/
def maxLinks : Nat := 40

/-- How long a name can be. -/
def maxName : Nat := 255

/-- How long a path name can be, with the zero byte at its end. -/
def maxPath : Nat := 4096

/-- The directory where a path name begins, if relative paths begin at `start`. -/
def startOf (start : Place) (path : Bytes) : Place :=
  if path.head? = some Path.slash then [] else start

/-- The end of a walk: a place, or a link to follow that stands in the directory `parent`, with
    the names that come after it. -/
inductive Stop where
  | place (place : Place)
  | link (parent : Place) (target : Bytes) (rest : List Bytes)

/-- Walks along names until a link has to be followed.  An empty name stands for the same
    directory as a dot does.  A link at the end is followed if `follow` says so. -/
def advance (t : FileTree) (follow : Bool) (place : Place) : List Bytes → Except Errno Stop
  | [] => .ok (.place place)
  | name :: rest =>
    match t.node? place with
    | some (.directory _) =>
      if name = [] ∨ name = [Path.dot] then t.advance follow place rest
      else if name = [Path.dot, Path.dot] then t.advance follow place.tail rest
      else if maxName < name.length then .error .nameTooLong
      else match t.node? (name :: place) with
        | none => .error .noEntry
        | some (.link target) =>
          if rest = [] ∧ !follow then .ok (.place (name :: place))
          else .ok (.link place target rest)
        | some _ => t.advance follow (name :: place) rest
    | _ => .error .notDirectory

/-- Walks along names and follows at most `links` links. -/
def walk (t : FileTree) (follow : Bool) : (links : Nat) → Place → List Bytes → Except Errno Place
  | links, place, names =>
    match t.advance follow place names, links with
    | .error e, _ => .error e
    | .ok (.place place), _ => .ok place
    | .ok (.link _ _ _), 0 => .error .loop
    | .ok (.link parent target rest), links + 1 =>
      t.walk follow links (startOf parent target) (target.splitOn Path.slash ++ rest)

/-- A path name that a system call takes. -/
def checkName (path : Bytes) : Except IoError Unit :=
  if path.contains 0 then .error .zeroByte
  else if path = [] then .error (.ofErrno .noEntry)
  else if maxPath ≤ path.length then .error (.ofErrno .nameTooLong)
  else .ok ()

/-- The place and the file that a path name leads to. -/
def resolve (t : FileTree) (follow : Bool) (path : Bytes) : Except IoError (Place × FileNode) := do
  checkName path
  let place ← (t.walk follow maxLinks (startOf t.cwd path) (path.splitOn Path.slash)).mapError
    .ofErrno
  match t.node? place with
  | some node => return (place, node)
  | none => throw (.ofErrno .noEntry)

/-! ## Changes -/

/-- The place that a path name has for a new file: its last name in the directory that the names
    before it lead to. -/
def newPlace (t : FileTree) (path : Bytes) : Except IoError Place := do
  checkName path
  let names := path.splitOn Path.slash
  let name := names.getLast?.getD []
  let parent ← (t.walk true maxLinks (startOf t.cwd path) names.dropLast).mapError .ofErrno
  match t.node? parent with
  | some (.directory _) =>
    if name = [] ∨ name = [Path.dot] ∨ name = [Path.dot, Path.dot] then throw (.ofErrno .occupied)
    else if maxName < name.length then throw (.ofErrno .nameTooLong)
    else return name :: parent
  | some _ => throw (.ofErrno .notDirectory)
  | none => throw (.ofErrno .noEntry)

/-- Makes a new file.  There must be none at the path yet, not even a link. -/
def create (t : FileTree) (path : Bytes) (node : FileNode) : Except IoError FileTree := do
  let place ← t.newPlace path
  if (t.node? place).isSome then throw (.ofErrno .occupied)
  return { t with nodes := Entries.insert id place node t.nodes }

/-- Opens the file at a path for writing, and the tree after it.  A directory cannot be written
    to; what is in another file is lost if `truncate` says so. -/
def openForWriting (t : FileTree) (truncate : Bool) (path : Bytes) : Except IoError FileTree := do
  let (place, node) ← t.resolve true path
  if node.isDirectory then throw (.ofErrno .isDirectory)
  if truncate then return { t with nodes := Entries.insert id place node.emptied t.nodes }
  return t

/-- Takes a file out that is no directory.  A link is taken out itself. -/
def remove (t : FileTree) (path : Bytes) : Except IoError FileTree := do
  let (place, node) ← t.resolve false path
  if node.isDirectory then throw (.ofErrno .isDirectory)
  return { t with nodes := Entries.erase id place t.nodes }

end FileTree

end ContainerAudit
