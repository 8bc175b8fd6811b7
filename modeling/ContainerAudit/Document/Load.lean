import ContainerAudit.Document.Codec
import ContainerAudit.Document.Mandatory
import ContainerAudit.Files.Probe
import ContainerAudit.IoError
import ContainerAudit.Path.Name

/-!
# Loading a document

A document is loaded from a JSON text or from the configuration file of a bundle.  It loads if the
text can be read, if it is a document and if no mandatory part is missing.  How the reader of JSON
words its errors is left open: a `Wording` says it.
-/

namespace ContainerAudit

/-- Why a reader of JSON gives up. -/
inductive Json.ReadError where
  /-- The text cannot be read to its end. -/
  | unread (cause : IoError)
  /-- The text has no value of the type. -/
  | undecoded (bytes : Text.Bytes) (cause : DecodeError)

/-- How errors are worded that come from elsewhere. -/
structure Wording where
  /-- The message of a reader of JSON. -/
  ofReader : Json.ReadError → String
  /-- An error of a reader of JSON as it stands in the log. -/
  readerInLog : Json.ReadError → String
  /-- An error of the operating system as it stands in the log. -/
  systemInLog : IoError → String

/-- Why a document does not load. -/
inductive LoadError where
  /-- There is no configuration file. -/
  | notFound (path : Text.Bytes)
  /-- The configuration file cannot be opened. -/
  | unopened (cause : IoError)
  /-- The reader of JSON gives up. -/
  | unparsed (cause : Json.ReadError)
  /-- Mandatory parts are missing. -/
  | missing (parts : List String)

namespace LoadError

/-- The message for a document that does not load. -/
def message (w : Wording) : LoadError → String
  | notFound path => s!"{Text.decodeLossy path} not found"
  | unopened cause => s!"IO error: {cause.message}"
  | unparsed cause => s!"Failed to parse configuration: {w.ofReader cause}"
  | missing parts =>
    let parts := ", ".intercalate parts
    s!"Mandatory information missing: {parts}"

/-- The name of the cause with what it holds, as it stands in the log. -/
def debugText (w : Wording) : LoadError → String
  | notFound path => s!"ConfigNotFound({Text.quotePath path})"
  | unopened cause => s!"Io({w.systemInLog cause})"
  | unparsed cause => s!"ConfigParse({w.readerInLog cause})"
  | missing parts =>
    let parts := ", ".intercalate (parts.map Text.quote)
    s!"MissingFields([{parts}])"

end LoadError

namespace Document

/-- Loads a document from a JSON text. -/
def fromJson (json : String) : Except LoadError Document := do
  let bytes := Text.encode json
  let d ← (decode bytes).mapError fun cause => .unparsed (.undecoded bytes cause)
  if d.missing.isEmpty then return d else throw (.missing d.missing)

/-- The path of the configuration file in the directory of a bundle. -/
def pathIn (directory : Text.Bytes) : Text.Bytes :=
  Path.append Path.slash directory (Text.encode "config.json")

/-- Loads a document from what came of opening the configuration file at a path. -/
def ofOpening (path : Text.Bytes) : Opening → Except LoadError Document
  | .refused cause => .error (if cause.kind = .notFound then .notFound path else .unopened cause)
  | .unreadable cause => .error (.unparsed (.unread cause))
  | .contents bytes => do
    let d ← (decode bytes).mapError fun cause => .unparsed (.undecoded bytes cause)
    if d.missing.isEmpty then return d else throw (.missing d.missing)

/-- Loads the document of the bundle in a directory of a file tree. -/
def loadFrom (t : FileTree) (directory : Text.Bytes) : Except LoadError Document :=
  ofOpening (pathIn directory) (t.openFile (pathIn directory))

end Document

end ContainerAudit
