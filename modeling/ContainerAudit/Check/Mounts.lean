import ContainerAudit.Check.Finding
import ContainerAudit.Layout

/-!
# Mounts

The declared mounts and the default file systems in the live mount table, and the order in which
nested mounts were made.
-/

namespace ContainerAudit.Check

/-- How the table is called when it cannot be read. -/
def mountTable : String := "mount table"

/-- A declared mount must be in the table with its type and source. -/
def mountFindings (live : MountTable) (m : Mount) : Findings :=
  let destination := Path.canonical m.destination
  let source := Path.canonical m.source
  let there := live.mountsAt destination
  let actual := match there.getLast? with
    | some r => s!"type {r.fstype}, source {r.source}"
    | none => "not mounted"
  .ensure (there.any fun r => r.fstype = m.fstype && Path.canonical r.source = source)
    (.mismatch s!"mount {destination}" s!"type {m.fstype}, source {source}" actual)

/-- Every declared mount must be in the table, unless it is a bind mount. -/
def mountsExist (d : Document) (s : System) : Conclusion := do
  let live ← s.query .mounts mountTable
  conclude ((d.mounts.filter (!·.isBind)).flatMap (mountFindings live))

/-- The first pair of positions of which the path at the first is a strict ancestor of the path
    at the second. -/
def nestedPair? (paths : List String) : Option (Nat × Nat) :=
  paths.zipIdx.findSome? fun (ancestor, a) =>
    (paths.findIdx? (Path.isProperAncestor ancestor)).map fun b => (a, b)

/-- The declared destinations, spelled in one way. -/
def destinations (d : Document) : List String := d.mounts.map fun m => Path.canonical m.destination

/-- Two declared destinations, the outer one first. -/
structure Nesting where
  ancestor : String
  descendant : String
  /-- Whether the outer one was declared first. -/
  ancestorFirst : Bool
deriving DecidableEq

/-- The first nesting among the declared mounts. -/
def nesting? (d : Document) : Option Nesting := do
  let paths := destinations d
  let (a, b) ← nestedPair? paths
  return ⟨← paths[a]?, ← paths[b]?, a < b⟩

/-- The word for the state of a mountpoint. -/
def activity (active : Bool) : String := if active then "active" else "shadowed"

/-- What the table says about a nesting: the outer mount must be active, and the inner one
    exactly if it was declared later. -/
def nestingFindings (n : Nesting) (live : MountTable) : Findings :=
  let relation := if n.ancestorFirst then "after" else "before"
  Findings.compare s!"mount order: {n.ancestor} (ancestor of {n.descendant})" activity
      true (live.isActive n.ancestor) ++
    Findings.compare s!"mount order: {n.descendant} (declared {relation} {n.ancestor})" activity
      n.ancestorFirst (live.isActive n.descendant)

/-- The order of the first nesting among the declared mounts. -/
def mountOrder (d : Document) (s : System) : Conclusion :=
  let platform := d.intendedPlatform s.host
  if !platform.stacksMounts then .error [.unsupported platform.name]
  else match nesting? d with
    | some n => do conclude (nestingFindings n (← s.query .mounts mountTable))
    | none => .ok ()

/-- The log line about the nesting that is checked. -/
def mountOrderNotes (d : Document) (s : System) : List String :=
  if !(d.intendedPlatform s.host).stacksMounts then []
  else (nesting? d).toList.map fun n =>
    s!"Checking mount order of {n.ancestor} and {n.descendant}"

/-- A default file system must be the last one mounted at its mountpoint. -/
def filesystemFindings (live : MountTable) (mountpoint fstype : String) : Findings :=
  match (live.mountsAt mountpoint).getLast? with
  | some r => Findings.compare s!"mount {mountpoint}" id fstype r.fstype
  | none => [.mismatch s!"mount {mountpoint}" fstype "not mounted"]

/-- The default file systems. -/
def defaultFilesystems (_ : Document) (s : System) : Conclusion := do
  let live ← s.query .mounts mountTable
  conclude (Layout.filesystems.flatMap fun (mountpoint, fstype) =>
    filesystemFindings live mountpoint fstype)

end ContainerAudit.Check
