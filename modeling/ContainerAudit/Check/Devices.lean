import ContainerAudit.Check.Finding
import ContainerAudit.Layout
import ContainerAudit.Text.Digits

/-!
# Device nodes and links

The default device nodes and symbolic links, and the device nodes that a document declares.
-/

namespace ContainerAudit.Check

/-- What the system says about a file, if it is there. -/
def statIfThere (s : System) (path : String) : Except Finding (Option FileStat) :=
  match s.ask (.stat path) with
  | .ok stat => .ok (some stat)
  | .error e => if e.kind = .notFound then .ok none else .error (.unanswered path e)

/-- The finding for a device node that is not there. -/
def nodeNotFound (path : String) : Finding := .violation s!"device node {path} not found"

/-- A default device node must be there and be a device. -/
def defaultDeviceFindings (s : System) (path : String) : Except Finding Findings := do
  match ← statIfThere s path with
  | some stat => return .ensure stat.kind.isDevice (.violation s!"file {path} is not a device")
  | none => return [nodeNotFound path]

/-- The default device nodes. -/
def defaultDevices (d : Document) (s : System) : Conclusion := do
  conclude (← Findings.collect (Layout.devicesFor d.terminal) (defaultDeviceFindings s))

/-- A default link must be there and lead to its target. -/
def symlinkFindings (s : System) (link target : String) : Except Finding Findings :=
  match s.ask (.linkTarget link) with
  | .ok actual =>
    .ok (.ensure (Path.key actual = Path.keyOf target)
      (.mismatch s!"symlink {link}" target (Text.decodeLossy actual)))
  | .error e =>
    if e.kind = .notFound then .ok [.violation s!"symlink {link} not found"]
    else if e.kind = .invalidInput then .ok [.violation s!"{link} is not a symlink"]
    else .error (.unanswered link e)

/-- The default symbolic links. -/
def defaultSymlinks (_ : Document) (s : System) : Conclusion := do
  conclude (← Findings.collect Layout.symlinks fun (link, target) =>
    symlinkFindings s link target)

/-- Compares the numbers of a device.  A pipe has none. -/
def numberFindings (d : Device) (stat : FileStat) : Findings :=
  if stat.kind = .fifo then []
  else
    Findings.compare s!"device {d.path} major number" (toString ·.toInt)
        d.major stat.device.major.toInt64 ++
      Findings.compare s!"device {d.path} minor number" (toString ·.toInt)
        d.minor stat.device.minor.toInt64

/-- Compares an attribute that a document may leave out. -/
def attributeFindings {α : Type} [DecidableEq α] (what : String) (display : α → String)
    (expected : Option α) (actual : α) : Findings :=
  expected.elim [] fun expected => Findings.compare what display expected actual

/-- Compares a declared device with the file at its path.  Only a file of the declared type is
    looked at further. -/
def nodeFindings (d : Device) (stat : FileStat) : Findings :=
  if stat.kind.fits d.type then
    numberFindings d stat ++
      attributeFindings s!"device {d.path} file mode" (Text.octal ·.toNat)
        (d.fileMode.map (· &&& (0o777 : UInt32))) stat.permissions ++
      attributeFindings s!"device {d.path} uid" toString d.uid stat.uid ++
      attributeFindings s!"device {d.path} gid" toString d.gid stat.gid
  else [.mismatch s!"device {d.path} type" d.type stat.kind.name]

/-- A declared device must be there as it is declared. -/
def deviceFindings (s : System) (d : Device) : Except Finding Findings := do
  match ← statIfThere s d.path with
  | some stat => return nodeFindings d stat
  | none => return [nodeNotFound d.path]

/-- The declared devices. -/
def devices (d : Document) (s : System) : Conclusion :=
  match d.linux with
  | some l => do conclude (← Findings.collect l.devices (deviceFindings s))
  | none => .ok ()

end ContainerAudit.Check
