import ContainerAudit.System

/-!
# Findings

A check either holds or ends with the findings in which the live system disagrees with the
document.  Where a check looks at several things, it collects the findings of all of them and then
concludes; a question without an answer stops it with the finding that says so.
-/

namespace ContainerAudit

/-- A way in which the live system disagrees with the document. -/
inductive Finding where
  | mismatch (what expected actual : String)
  | violation (text : String)
  /-- The document names a limit that does not exist. -/
  | unknownLimit (name : String)
  /-- The live system did not answer. -/
  | unanswered (what : String) (cause : IoError)
  /-- The check makes no sense on a platform. -/
  | unsupported (platform : String)
deriving DecidableEq

namespace Finding

/-- The text of a finding. -/
def message : Finding → String
  | mismatch what expected actual => s!"{what} expected: {expected}, actual: {actual}"
  | violation text => text
  | unknownLimit name => s!"unknown rlimit type {name}"
  | unanswered what cause => s!"failed to read {what}: {cause.message}"
  | unsupported platform => s!"not supported on {platform}"

/-- Whether a finding says that the check makes no sense. -/
def isUnsupported : Finding → Bool
  | unsupported _ => true
  | _ => false

end Finding

/-- What a check found. -/
abbrev Findings := List Finding

namespace Findings

/-- The text of several findings. -/
def message (fs : Findings) : String := "; ".intercalate (fs.map Finding.message)

/-- Whether findings say that a check makes no sense, and nothing else. -/
def isUnsupported (fs : Findings) : Bool := !fs.isEmpty && fs.all Finding.isUnsupported

/-- The findings of all items in order, or the first finding that stops the check. -/
def collect {α : Type} (items : List α) (check : α → Except Finding Findings) :
    Except Finding Findings :=
  (items.mapM check).map List.flatten

/-- A finding unless a condition holds. -/
def ensure (holds : Bool) (finding : Finding) : Findings := if holds then [] else [finding]

/-- Compares an expected value with the actual one. -/
def compare {α : Type} [DecidableEq α] (what : String) (display : α → String)
    (expected actual : α) : Findings :=
  ensure (actual = expected) (.mismatch what (display expected) (display actual))

end Findings

/-- The answer to a question, or the finding that there is none; `what` is how the finding
    calls what was asked for. -/
def System.query (s : System) (q : Question) (what : String) : Except Finding q.Answer :=
  (s.ask q).mapError (.unanswered what)

/-- How a check ends: it holds, or there are findings. -/
abbrev Conclusion := Except Findings Unit

namespace Check

/-- A finding that stops a check is the only one that the check reports. -/
instance liftFinding : MonadLift (Except Finding) (Except Findings) where
  monadLift := Except.mapError ([·])

/-- The conclusion from all that was found. -/
def conclude (findings : Findings) : Conclusion :=
  if findings.isEmpty then .ok () else .error findings

/-- A condition on which a check holds, with the finding if it does not. -/
def require (holds : Bool) (finding : Finding) : Conclusion :=
  if holds then .ok () else .error [finding]

/-- Holds if the actual value is the expected one. -/
def expect {α : Type} [DecidableEq α] (what : String) (display : α → String)
    (expected actual : α) : Conclusion :=
  require (actual = expected) (.mismatch what (display expected) (display actual))

end Check

end ContainerAudit
