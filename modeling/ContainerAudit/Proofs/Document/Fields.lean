import ContainerAudit.Document.Codec
import ContainerAudit.Proofs.Json.Record

/-!
# The fields of the blocks of a document

In each block of a document the fields have names of their own, and setting one leaves the others as
they are, so they can be set in any order.
-/

namespace ContainerAudit

/-- The operating system and the architecture. -/
theorem PlatformBlock.independent : PlatformBlock.record.IsIndependent where
  nodup := by decide
  commutes := by simp [record]

/-- The path of the root and its flag. -/
theorem RootBlock.independent : RootBlock.record.IsIndependent where
  nodup := by decide
  commutes := by simp [record]

/-- The ids of a user and of its groups. -/
theorem User.independent : User.record.IsIndependent where
  nodup := by decide
  commutes := by simp [record]

/-- The five sets of capabilities. -/
theorem CapabilityNames.independent : CapabilityNames.record.IsIndependent where
  nodup := by decide
  commutes := by simp [record]

/-- The type of a limit and its two values. -/
theorem DeclaredLimit.independent : DeclaredLimit.record.IsIndependent where
  nodup := by decide
  commutes := by simp [record]

/-- The fields of the process. -/
theorem Process.independent : Process.record.IsIndependent where
  nodup := by decide
  commutes := by simp [record]

/-- The fields of a mount. -/
theorem Mount.independent : Mount.record.IsIndependent where
  nodup := by decide
  commutes := by simp [record]

/-- The type of a namespace and its path. -/
theorem Namespace.independent : Namespace.record.IsIndependent where
  nodup := by decide
  commutes := by simp [record]

/-- The fields of a device. -/
theorem Device.independent : Device.record.IsIndependent where
  nodup := by decide
  commutes := by simp [record]

/-- The three numbers of a mapping. -/
theorem IdMapping.independent : IdMapping.record.IsIndependent where
  nodup := by decide
  commutes := by simp [record]

/-- The one field of the resources, which has no other to depend on. -/
theorem Resources.independent : Resources.record.IsIndependent where
  nodup := by decide
  commutes := by simp [record]

/-- The fields of the block for Linux. -/
theorem LinuxBlock.independent : LinuxBlock.record.IsIndependent where
  nodup := by decide
  commutes := by simp [record]

/-- The fields of a document. -/
theorem Document.independent : Document.record.IsIndependent where
  nodup := by decide
  commutes := by simp [record]

end ContainerAudit
