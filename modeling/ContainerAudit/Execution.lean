import ContainerAudit.Document.Load
import ContainerAudit.Grade

/-!
# Execution of an audit

An execution loads the document of a bundle, runs all checks and says what it writes and with
which status it ends.  It ends with `unloaded` exactly if the document does not load, and then
the live system does not count; else it ends with `failed` exactly if some failure counts.
-/

namespace ContainerAudit

/-- How an execution ends. -/
inductive ExitStatus where
  | passed
  /-- Some failure counts. -/
  | failed
  /-- The document does not load. -/
  | unloaded
deriving DecidableEq, Repr

/-- The number of a status. -/
def ExitStatus.code : ExitStatus → Nat
  | passed => 0
  | failed => 1
  | unloaded => 2

/-- What an execution leaves behind. -/
structure Execution where
  status : ExitStatus
  out : String
  err : String
  log : List LogRecord
deriving DecidableEq

namespace Audit

/-- The execution for a document that does not load. -/
def refuse (w : Wording) (cause : LoadError) : Execution where
  status := .unloaded
  out := ""
  err := ended (cause.message w)
  log := [.debug s!"Configuration error: {cause.debugText w}"]

/-- The execution for a document that was loaded from a path. -/
def examine (path : Text.Bytes) (d : Document) (minimum : Level) (s : System) : Execution :=
  let graded := grade (runAll d s) minimum
  let log := .debug s!"Loaded configuration from {Text.decodeLossy path}" :: logAll d s
  match graded.failures with
  | none => { status := .passed, out := report graded.results, err := "", log }
  | some failures =>
    { status := .failed, out := report graded.results, err := summary failures, log }

/-- The execution for a document that may have been loaded from a path. -/
def execute (w : Wording) (path : Text.Bytes) (loaded : Except LoadError Document)
    (minimum : Level) (s : System) : Execution :=
  match loaded with
  | .ok d => examine path d minimum s
  | .error cause => refuse w cause

/-- The execution for a bundle in a file tree. -/
def executeIn (w : Wording) (t : FileTree) (directory : Text.Bytes) (minimum : Level)
    (s : System) : Execution :=
  execute w (Document.pathIn directory) (Document.loadFrom t directory) minimum s

end Audit

end ContainerAudit
