import ContainerAudit.Check.Finding

/-!
# Resources and kernel parameters

The resource limits and the out-of-memory score of the process, and the kernel parameters of the
container.
-/

namespace ContainerAudit.Check

/-- One declared limit.  A limit that does not exist is not asked for. -/
def limitFindings (s : System) (l : DeclaredLimit) : Except Finding Findings :=
  if Limits.isKnown l.name then do
    let actual ← s.query (.limits l.name) l.name
    return Findings.compare s!"{l.name} soft limit" toString l.soft actual.soft ++
      Findings.compare s!"{l.name} hard limit" toString l.hard actual.hard
  else .ok [.unknownLimit l.name]

/-- The soft and hard values of the declared limits. -/
def rlimits (d : Document) (s : System) : Conclusion :=
  match d.process with
  | some p => do conclude (← Findings.collect p.rlimits (limitFindings s))
  | none => .ok ()

/-- The adjustment of the out-of-memory score. -/
def oomScoreAdj (d : Document) (s : System) : Conclusion :=
  match d.oomScoreAdj with
  | some expected => do
    let actual ← s.query .oomScoreAdj "oom_score_adj"
    expect "oom_score_adj" (fun n => toString n.toInt) expected actual
  | none => .ok ()

/-- One declared kernel parameter. -/
def sysctlFindings (s : System) (entry : String × String) : Except Finding Findings := do
  let (key, expected) := entry
  let actual ← s.query (.sysctl key) s!"sysctl {key}"
  return Findings.compare s!"sysctl {key}" id expected actual

/-- The kernel parameters, in ascending order of their names. -/
def sysctl (d : Document) (s : System) : Conclusion :=
  match d.linux with
  | some l => do conclude (← Findings.collect l.sysctl.entries (sysctlFindings s))
  | none => .ok ()

end ContainerAudit.Check
