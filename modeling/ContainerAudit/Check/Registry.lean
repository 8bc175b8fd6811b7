import ContainerAudit.Check.Devices
import ContainerAudit.Check.Identity
import ContainerAudit.Check.Invocation
import ContainerAudit.Check.Mounts
import ContainerAudit.Check.Privilege
import ContainerAudit.Check.Protection
import ContainerAudit.Check.Resource
import ContainerAudit.Level

/-!
# The registry of checks

All checks in the order in which they run, with the strength of the requirement that they check
and the platforms that they apply to.
-/

namespace ContainerAudit

/-- A check as the audit runs it. -/
structure Check where
  description : String
  level : Level
  /-- Whether the check makes sense on a platform. -/
  applies : Platform → Bool
  run : Document → System → Conclusion
  /-- What the check writes to the log. -/
  notes : Document → System → List String

namespace Check

/-- The platform predicate of checks that make sense everywhere. -/
def everywhere (_ : Platform) : Bool := true

/-- The notes of a check that writes nothing to the log. -/
def noNotes (_ : Document) (_ : System) : List String := []

/-- All checks. -/
def registry : List Check := [
  ⟨"root filesystem", .must, everywhere, rootFilesystem, rootFilesystemNotes⟩,
  ⟨"process uid", .must, everywhere, uid, noNotes⟩,
  ⟨"process gid", .must, everywhere, gid, noNotes⟩,
  ⟨"supplementary groups", .must, everywhere, groups, noNotes⟩,
  ⟨"working directory", .must, everywhere, workingDirectory, noNotes⟩,
  ⟨"process arguments", .must, everywhere, arguments, noNotes⟩,
  ⟨"environment", .must, everywhere, environment, noNotes⟩,
  ⟨"no new privileges", .must, everywhere, noNewPrivileges, noNotes⟩,
  ⟨"capabilities", .must, everywhere, capabilities, noNotes⟩,
  ⟨"hostname", .must, everywhere, hostname, noNotes⟩,
  ⟨"rlimits", .must, everywhere, rlimits, noNotes⟩,
  ⟨"mounts exist", .must, everywhere, mountsExist, noNotes⟩,
  ⟨"mount order", .must, Platform.stacksMounts, mountOrder, mountOrderNotes⟩,
  ⟨"default filesystems", .should, Platform.isLinux, defaultFilesystems, noNotes⟩,
  ⟨"default devices", .must, Platform.isLinux, defaultDevices, noNotes⟩,
  ⟨"default symlinks", .must, Platform.isLinux, defaultSymlinks, noNotes⟩,
  ⟨"linux devices", .must, Platform.isLinux, devices, noNotes⟩,
  ⟨"sysctl", .must, Platform.isLinux, sysctl, noNotes⟩,
  ⟨"masked paths", .must, Platform.isLinux, maskedPaths, noNotes⟩,
  ⟨"readonly paths", .must, Platform.isLinux, readonlyPaths, readonlyPathsNotes⟩,
  ⟨"oom score adj", .must, Platform.isLinux, oomScoreAdj, noNotes⟩,
  ⟨"uid mappings", .must, Platform.isLinux, uidMappings, noNotes⟩,
  ⟨"gid mappings", .must, Platform.isLinux, gidMappings, noNotes⟩]

/-- The check with a description. -/
def named? (description : String) : Option Check :=
  registry.find? (·.description = description)

end Check

end ContainerAudit
