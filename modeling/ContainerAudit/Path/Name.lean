import ContainerAudit.Text.Utf8

/-!
# Path names

A path name is a sequence of bytes.  Two names are the same path to a program that keeps paths
as keys if they have the same `key`: repeated and trailing slashes do not count, nor does `.`
except in front.
-/

namespace ContainerAudit.Path

open Text (Bytes)

/-- The byte of a slash. -/
def slash : UInt8 := 0x2F

/-- The byte of a dot. -/
def dot : UInt8 := 0x2E

/-- What a path name means as a key: whether it starts at the root, and its components. -/
structure Key where
  rooted : Bool
  components : List Bytes
deriving DecidableEq

/-- The key of a path name. -/
def key (name : Bytes) : Key :=
  let pieces := name.splitOn slash
  let counts (piece : Bytes) : Bool := !piece.isEmpty && piece != [dot]
  if pieces.head? = some [dot] then ⟨false, [dot] :: pieces.filter counts⟩
  else ⟨name.head? == some slash, pieces.filter counts⟩

/-- The key of a path that is written as text. -/
def keyOf (path : String) : Key := key (Text.encode path)

/-- Joins a relative path to a directory, with one slash between them unless the directory is
    empty or ends in one.  A rooted path stands for itself. -/
def append {α : Type} [DecidableEq α] (slash : α) (directory path : List α) : List α :=
  if path.head? = some slash then path
  else if directory.isEmpty ∨ directory.getLast? = some slash then directory ++ path
  else directory ++ slash :: path

end ContainerAudit.Path
