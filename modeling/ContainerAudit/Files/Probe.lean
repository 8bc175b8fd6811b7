import ContainerAudit.Files.Opening
import ContainerAudit.Files.Tree

/-!
# Probes of a file tree

What a process with all privileges learns about a path of a file tree: what the kernel says
about the file, where a link leads, and whether the path can be read or written to.  A write
probe of a directory makes a file in it and takes it out again, so it is given the name of that
file, and it returns the tree that it leaves.
-/

namespace ContainerAudit.FileTree

open Text (Bytes)

/-- What the kernel says about the file at a path. -/
def stat (t : FileTree) (path : Bytes) : Except IoError FileStat :=
  (t.resolve true path).map fun (_, node) => node.stat

/-- The target of the link at a path. -/
def linkTarget (t : FileTree) (path : Bytes) : Except IoError Bytes := do
  match ← t.resolve false path with
  | (_, .link target) => return target
  | _ => throw (.ofErrno .invalid)

/-- Whether there is anything to read in a file. -/
def hasData (t : FileTree) (place : Place) : FileNode → Bool
  | .directory _ => t.hasEntries place
  | .regular _ content => !content.isEmpty
  | .link _ | .fifo _ | .nullDevice _ => false

/-- Whether there is anything to read at a path.  At a path that does not exist there is
    nothing. -/
def isReadable (t : FileTree) (path : Bytes) : Except IoError Bool :=
  match t.resolve true path with
  | .ok (place, node) => .ok (t.hasData place node)
  | .error e => if e.kind = .notFound then .ok false else .error e

/-- The name of the file that a write probe makes, from a text that makes it unique. -/
def probeName (unique : String) : String := s!".runtimetest-probe-{unique}"

/-- Tries to write at a path, and the tree after it.  The file that it makes in a directory is
    empty and has the name `name`; any other file is opened, and what is in it stays there. -/
def writeProbe (t : FileTree) (name path : Bytes) : Except IoError Unit × FileTree :=
  match t.resolve true path with
  | .error e => (.error e, t)
  | .ok (_, .directory _) =>
    let probe := Path.append Path.slash path name
    match t.create probe (.regular 0o644 []) with
    | .error e => (.error e, t)
    | .ok made => (.ok (), (made.remove probe).toOption.getD made)
  | .ok _ =>
    match t.openForWriting false path with
    | .error e => (.error e, t)
    | .ok opened => (.ok (), opened)

/-- Opens the file at a path and reads all of it.  A directory can be opened but not read. -/
def openFile (t : FileTree) (path : Bytes) : Opening :=
  match t.resolve true path with
  | .error e => .refused e
  | .ok (_, .directory _) => .unreadable (.ofErrno .isDirectory)
  | .ok (_, .regular _ content) => .contents content
  | .ok _ => .contents []

end ContainerAudit.FileTree
