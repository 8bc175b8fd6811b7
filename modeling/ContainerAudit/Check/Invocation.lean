import ContainerAudit.Check.Finding

/-!
# How the process was started

The working directory, the arguments and the environment of the process, and the name of its
host.
-/

namespace ContainerAudit.Check

/-- The working directory, byte for byte. -/
def workingDirectory (d : Document) (s : System) : Conclusion :=
  match d.process with
  | some p =>
    if p.cwd.isEmpty then .ok ()
    else do
      let actual ← s.query .workingDirectory "working directory"
      require (actual = Text.encode p.cwd) (.mismatch "Cwd" p.cwd (Text.decodeLossy actual))
  | none => .ok ()

/-- The argument vector.  Only vectors of the same length are compared argument by argument. -/
def arguments (d : Document) (s : System) : Conclusion :=
  match d.process with
  | some p => do
    let actual ← s.query .arguments "process arguments"
    if actual.length ≠ p.args.length then
      .error [.mismatch "Process arguments length" (toString p.args.length)
        (toString actual.length)]
    else
      conclude ((p.args.zip actual).zipIdx.flatMap fun ((expected, actual), i) =>
        Findings.compare s!"Process arguments[{i}]" id expected actual)
  | none => .ok ()

/-- A declared variable; one that is not set counts as empty. -/
def variableFindings (s : System) (entry : String) : Findings :=
  let (name, expected) := Process.splitEntry entry
  Findings.compare s!"Env {name}" id expected ((s.env name).getD "")

/-- The environment. -/
def environment (d : Document) (s : System) : Conclusion :=
  match d.process with
  | some p => conclude (p.env.flatMap (variableFindings s))
  | none => .ok ()

/-- The host name, if the document gives one. -/
def hostname (d : Document) (s : System) : Conclusion :=
  let expected := d.hostname.getD ""
  if expected.isEmpty then .ok ()
  else do expect "Hostname" id expected (← s.query .hostname "hostname")

end ContainerAudit.Check
