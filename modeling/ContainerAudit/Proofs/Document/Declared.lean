import ContainerAudit.Document.Basic

/-!
# What a document declares

The lists that the checks walk through.  A document without the block in which a list stands
declares nothing there.
-/

namespace ContainerAudit.Document

/-- The declared environment. -/
def declaredEnv (d : Document) : List String := (d.process.map (·.env)).getD []

/-- The declared limits. -/
def declaredLimits (d : Document) : List DeclaredLimit := (d.process.map (·.rlimits)).getD []

/-- The declared device nodes. -/
def declaredDevices (d : Document) : List Device := (d.linux.map (·.devices)).getD []

/-- The declared kernel parameters. -/
def declaredSettings (d : Document) : List (String × String) :=
  (d.linux.map (·.sysctl.entries)).getD []

/-- The declared masked paths. -/
def declaredMasked (d : Document) : List String := (d.linux.map (·.maskedPaths)).getD []

/-- The declared mappings of a kind of ids. -/
def declaredMappings (d : Document) : IdKind → List IdMapping
  | .uid => (d.linux.map (·.uidMappings)).getD []
  | .gid => (d.linux.map (·.gidMappings)).getD []

end ContainerAudit.Document
