import ContainerAudit.Check.Finding

/-!
# Protected paths

Paths that nobody may read or write: the root of a read-only container, masked paths and
read-only paths.  A write probe that is turned down is what the document asks for, so its error
only goes to the log.
-/

namespace ContainerAudit.Check

/-- The log line about a write probe that was turned down. -/
def rejection? (s : System) (path : String) : Option String :=
  match s.ask (.writeProbe path) with
  | .ok _ => none
  | .error e => some s!"Write probe at {path} rejected: {e.message}"

/-- Whether a write probe succeeds. -/
def isWritable (s : System) (path : String) : Bool := (s.ask (.writeProbe path)).isOk

/-- A read-only root must turn a write probe down. -/
def rootFilesystem (d : Document) (s : System) : Conclusion :=
  if d.readonlyRoot then
    require (!isWritable s "/")
      (.violation "root filesystem should be readonly but it is writable")
  else .ok ()

/-- The log line about the probe of a read-only root. -/
def rootFilesystemNotes (d : Document) (s : System) : List String :=
  if d.readonlyRoot then (rejection? s "/").toList else []

/-- One masked path. -/
def maskedPathFindings (s : System) (path : String) : Except Finding Findings := do
  let readable ← s.query (.isReadable path) path
  return .ensure (!readable) (.violation s!"{path} should not be readable")

/-- Nothing can be read at a masked path. -/
def maskedPaths (d : Document) (s : System) : Conclusion :=
  match d.linux with
  | some l => do conclude (← Findings.collect l.maskedPaths (maskedPathFindings s))
  | none => .ok ()

/-- The read-only paths that a document declares. -/
def declaredReadonly (d : Document) : List String := (d.linux.map (·.readonlyPaths)).getD []

/-- A read-only path must turn a write probe down. -/
def readonlyPaths (d : Document) (s : System) : Conclusion :=
  conclude (((declaredReadonly d).filter (isWritable s)).map fun path =>
    .violation s!"{path} should be readonly")

/-- The log lines about the probes of read-only paths. -/
def readonlyPathsNotes (d : Document) (s : System) : List String :=
  (declaredReadonly d).filterMap (rejection? s)

end ContainerAudit.Check
