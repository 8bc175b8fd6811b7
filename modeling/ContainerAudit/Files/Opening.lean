import ContainerAudit.IoError
import ContainerAudit.Text.Utf8

/-!
# Opened files
-/

namespace ContainerAudit

/-- What comes of opening a file and reading it to its end. -/
inductive Opening where
  /-- The file cannot be opened. -/
  | refused (cause : IoError)
  /-- The file can be opened but not read. -/
  | unreadable (cause : IoError)
  | contents (bytes : Text.Bytes)
deriving DecidableEq

end ContainerAudit
