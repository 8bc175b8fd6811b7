import ContainerAudit.Check.Registry
import ContainerAudit.Log

/-!
# Running checks

An audit runs checks in order, each on the same document and system.  No check learns anything
from another one.
-/

namespace ContainerAudit

/-- What came of a check. -/
inductive Outcome where
  | pass
  | skip (reason : String)
  | fail (findings : Findings)
deriving DecidableEq

namespace Outcome

/-- Whether a check failed. -/
def isFail : Outcome → Bool
  | fail _ => true
  | _ => false

/-- The findings of a failed check. -/
def findings? : Outcome → Option Findings
  | fail findings => some findings
  | _ => none

end Outcome

/-- The result of one check. -/
structure Verdict where
  description : String
  level : Level
  outcome : Outcome
deriving DecidableEq

namespace Check

/-- The outcome of a check that ended: one that holds passes, and one that found only that it makes
    no sense is skipped. -/
def judge : Conclusion → Outcome
  | .ok () => .pass
  | .error findings =>
    if Findings.isUnsupported findings then .skip (Findings.message findings)
    else .fail findings

/-- What comes of a check. -/
def outcome (c : Check) (d : Document) (s : System) : Outcome :=
  let platform := d.intendedPlatform s.host
  if c.applies platform then judge (c.run d s)
  else .skip s!"not applicable to {platform.name}"

/-- The result of a check. -/
def result (c : Check) (d : Document) (s : System) : Verdict :=
  ⟨c.description, c.level, c.outcome d s⟩

/-- What the log says about a check. -/
def log (c : Check) (d : Document) (s : System) : List LogRecord :=
  if c.applies (d.intendedPlatform s.host) then
    .debug s!"Running check: {c.description}" ::
      (c.notes d s).map .debug ++
      match judge (c.run d s) with
      | .fail findings => [.debug s!"Check {c.description} failed: {findings.message}"]
      | _ => []
  else []

end Check

namespace Audit

/-- The results of checks, in order. -/
def run (checks : List Check) (d : Document) (s : System) : List Verdict :=
  checks.map (·.result d s)

/-- What the log says about checks. -/
def log (checks : List Check) (d : Document) (s : System) : List LogRecord :=
  checks.flatMap (·.log d s)

/-- The results of all checks. -/
def runAll (d : Document) (s : System) : List Verdict := run Check.registry d s

/-- What the log says about all checks; at the end it says how many failed. -/
def logAll (d : Document) (s : System) : List LogRecord :=
  let results := runAll d s
  let failed := results.filter (·.outcome.isFail)
  log Check.registry d s ++ [.info s!"Ran {results.length} checks, {failed.length} failed"]

end Audit

end ContainerAudit
