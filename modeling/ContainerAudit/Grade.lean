import ContainerAudit.Audit

/-!
# Grading and reporting

A failure counts against an audit if its requirement is at least as strong as the minimum that
the caller chose.  The report lists every result, whatever the minimum; the summary lists the
failures that count.
-/

namespace ContainerAudit

/-- A failure that counts against the audit. -/
structure FatalFailure where
  /-- The place of the check in the report, from one. -/
  number : Nat
  description : String
  level : Level
  message : String
deriving DecidableEq

/-- A graded audit. -/
structure GradedAudit where
  /-- The results, whatever the minimum. -/
  results : List Verdict
  /-- The failures that count, if there are any. -/
  failures : Option (List FatalFailure)

namespace Audit

/-- The failure at a place of the report, if it counts. -/
def fatal? (minimum : Level) (result : Verdict) (number : Nat) : Option FatalFailure :=
  if minimum ≤ result.level then
    result.outcome.findings?.map fun findings =>
      ⟨number, result.description, result.level, findings.message⟩
  else none

/-- The failures that count, in the order of the report. -/
def fatals (minimum : Level) (results : List Verdict) : List FatalFailure :=
  (results.zipIdx 1).filterMap fun (result, number) => fatal? minimum result number

/-- Grades results against a minimum. -/
def grade (results : List Verdict) (minimum : Level) : GradedAudit where
  results := results
  failures :=
    let fatals := fatals minimum results
    if fatals.isEmpty then none else some fatals

/-- One line of the report. -/
def reportLine (number : Nat) (r : Verdict) : String :=
  match r.outcome with
  | .pass => s!"ok {number} - {r.description}"
  | .skip reason => s!"ok {number} - {r.description} # SKIP {reason}"
  | .fail findings =>
    s!"not ok {number} - {r.description} # {r.level.name}: {findings.message}"

/-- A line with its end. -/
def ended (line : String) : String := line ++ "\n"

/-- The report: a line for each result, and the number of results. -/
def report (results : List Verdict) : String :=
  String.join ((results.zipIdx 1).map fun (result, number) => ended (reportLine number result)) ++
    ended s!"1..{results.length}"

/-- The heading of the summary. -/
def heading (fatals : List FatalFailure) : String := s!"{fatals.length} fatal failure(s)"

/-- One line of the summary. -/
def summaryLine (f : FatalFailure) : String :=
  s!"  {f.number} {f.description} [{f.level.name}]: {f.message}"

/-- The summary of the failures that count. -/
def summary (fatals : List FatalFailure) : String :=
  ended (heading fatals ++ ":") ++ String.join (fatals.map fun f => ended (summaryLine f))

end Audit

end ContainerAudit
