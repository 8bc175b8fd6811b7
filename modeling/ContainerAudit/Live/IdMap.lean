import ContainerAudit.IoError
import ContainerAudit.Text.Blank
import ContainerAudit.Text.Digits

/-!
# Id mappings of user namespaces

A user namespace maps ranges of its own ids to ranges of ids outside.  The kernel writes one
range on a line: the first id inside, the first id outside, and the number of ids.
-/

namespace ContainerAudit

/-- A range of ids. -/
structure IdMapping where
  hostId : UInt32
  containerId : UInt32
  size : UInt32
deriving DecidableEq

/-- Which ids a mapping is for. -/
inductive IdKind where
  | uid
  | gid
deriving DecidableEq, Repr

/-- The word for a kind of ids. -/
def IdKind.name : IdKind → String
  | uid => "uid"
  | gid => "gid"

namespace IdMapping

/-- The number in a word. -/
def parseId? (word : List Char) : Option UInt32 :=
  match Text.readNat 10 UInt32.size word with
  | .ok n => some (UInt32.ofNat n)
  | .error _ => none

/-- The mapping on a line. -/
def parseLine? (line : List Char) : Option IdMapping :=
  match Text.words line with
  | [container, host, size] => do
    let containerId ← parseId? container
    let hostId ← parseId? host
    let size ← parseId? size
    return { hostId, containerId, size }
  | _ => none

/-- The error for a line that holds no mapping. -/
def malformedLine (line : List Char) : IoError :=
  ⟨.invalidData, s!"invalid id map line '{String.ofList (Text.trim line)}'"⟩

/-- The mapping on a line, or the error that names the line. -/
def parseLine (line : List Char) : Except IoError IdMapping :=
  (parseLine? line).elim (.error (malformedLine line)) .ok

/-- The mappings in a text, where blank lines do not count. -/
def parse (content : String) : Except IoError (List IdMapping) :=
  ((Text.lines content.toList).filter fun line => !(Text.trim line).isEmpty).mapM parseLine

end IdMapping

end ContainerAudit
