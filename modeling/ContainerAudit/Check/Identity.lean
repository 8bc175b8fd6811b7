import ContainerAudit.Check.Finding

/-!
# Who the process is

The user and group ids of the process, its supplementary groups, and the id mappings of its user
namespace.
-/

namespace ContainerAudit.Check

/-- The user id. -/
def uid (d : Document) (s : System) : Conclusion :=
  match d.process with
  | some p => expect "UID" toString p.user.uid s.uid
  | none => .ok ()

/-- The group id. -/
def gid (d : Document) (s : System) : Conclusion :=
  match d.process with
  | some p => expect "GID" toString p.user.gid s.gid
  | none => .ok ()

/-- Every declared supplementary group must be among the live ones. -/
def groups (d : Document) (s : System) : Conclusion :=
  match d.process with
  | some p =>
    if p.user.additionalGids.isEmpty then .ok ()
    else do
      let live ← s.query .groups "supplementary groups"
      conclude ((p.user.additionalGids.filter (!live.contains ·)).map fun g =>
        .violation s!"expected supplementary group {g} is missing")
  | none => .ok ()

/-- The text of a mapping that is not live. -/
def mappingNotFound (kind : IdKind) (m : IdMapping) : Finding :=
  .violation
    s!"{kind.name} mapping hostID {m.hostId} containerID {m.containerId} size {m.size} not found"

/-- As many mappings as declared must be live, and every declared one among them.  A document
    without mappings asks for nothing. -/
def mappings (kind : IdKind) (declared : List IdMapping) (s : System) : Conclusion :=
  if declared.isEmpty then .ok ()
  else do
    let live ← s.query (.idMap kind) s!"{kind.name} mappings"
    if live.length ≠ declared.length then
      .error [.mismatch s!"{kind.name} mappings count" (toString declared.length)
        (toString live.length)]
    else conclude ((declared.filter (!live.contains ·)).map (mappingNotFound kind))

/-- The mappings of user ids. -/
def uidMappings (d : Document) (s : System) : Conclusion :=
  mappings .uid ((d.linux.map (·.uidMappings)).getD []) s

/-- The mappings of group ids. -/
def gidMappings (d : Document) (s : System) : Conclusion :=
  mappings .gid ((d.linux.map (·.gidMappings)).getD []) s

end ContainerAudit.Check
