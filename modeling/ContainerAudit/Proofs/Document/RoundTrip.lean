import ContainerAudit.Proofs.Document.Fields
import ContainerAudit.Proofs.Document.Settings
import ContainerAudit.Proofs.Json.Written

/-!
# Documents are read as they were written

Each block of a document is written with all its fields and read back field by field.  From the
smallest blocks up this gives the whole document, and with the text of its tree a document survives
being written as JSON and read again.

## Key results

- `Document.readsBack`: the tree of a document is read as that document
- `Document.decode_render`: the text of a document is read as that document
-/

namespace ContainerAudit

open Json.Codec (readsBack_text readsBack_boolean readsBack_uint32 readsBack_uint64 readsBack_int32
  readsBack_int64)
open Json.Record (decode_of_fills)

/-! ## Each block is read back -/

/-- The platform block. -/
theorem PlatformBlock.readsBack : record.codec.ReadsBack := fun p =>
  decode_of_fills independent.nodup <|
    .optional (readsBack_text p.os) <|
    .optional (readsBack_text p.arch) <|
    .nil _

/-- The root block. -/
theorem RootBlock.readsBack : record.codec.ReadsBack := fun r =>
  decode_of_fills independent.nodup <|
    .optional (readsBack_text r.path) <|
    .optional (readsBack_boolean r.readonly) <|
    .nil _

/-- A user. -/
theorem User.readsBack : record.codec.ReadsBack := fun u =>
  decode_of_fills independent.nodup <|
    .optional (readsBack_uint32 u.uid) <|
    .optional (readsBack_uint32 u.gid) <|
    .optional (readsBack_uint32.list u.additionalGids) <|
    .nil _

/-- The declared capabilities, set by set. -/
theorem CapabilityNames.readsBack : record.codec.ReadsBack := fun c =>
  decode_of_fills independent.nodup <|
    .optional (readsBack_text.list c.bounding) <|
    .optional (readsBack_text.list c.effective) <|
    .optional (readsBack_text.list c.inheritable) <|
    .optional (readsBack_text.list c.permitted) <|
    .optional (readsBack_text.list c.ambient) <|
    .nil _

/-- A declared limit, the hard value before the soft one. -/
theorem DeclaredLimit.readsBack : record.codec.ReadsBack := fun l =>
  decode_of_fills independent.nodup <|
    .mandatory (readsBack_text l.name) <|
    .mandatory (readsBack_uint64 l.hard) <|
    .mandatory (readsBack_uint64 l.soft) <|
    .nil _

/-- The process block, with its user, its capabilities and its limits. -/
theorem Process.readsBack : record.codec.ReadsBack := fun p =>
  decode_of_fills independent.nodup <|
    .optional (readsBack_boolean p.terminal) <|
    .optional (User.readsBack p.user) <|
    .optional (readsBack_text.list p.args) <|
    .optional (readsBack_text.list p.env) <|
    .optional (readsBack_text p.cwd) <|
    .optional (CapabilityNames.readsBack.option nofun p.capabilities) <|
    .optional (DeclaredLimit.readsBack.list p.rlimits) <|
    .optional (readsBack_boolean p.noNewPrivileges) <|
    .optional (readsBack_int32.option nofun p.oomScoreAdj) <|
    .nil _

/-- A mount. -/
theorem Mount.readsBack : record.codec.ReadsBack := fun m =>
  decode_of_fills independent.nodup <|
    .optional (readsBack_text m.destination) <|
    .optional (readsBack_text m.fstype) <|
    .optional (readsBack_text m.source) <|
    .optional (readsBack_text.list m.options) <|
    .nil _

/-- A namespace. -/
theorem Namespace.readsBack : record.codec.ReadsBack := fun n =>
  decode_of_fills independent.nodup <|
    .optional (readsBack_text n.type) <|
    .optional (readsBack_text.option nofun n.path) <|
    .nil _

/-- A device, with the attributes that are declared. -/
theorem Device.readsBack : record.codec.ReadsBack := fun d =>
  decode_of_fills independent.nodup <|
    .optional (readsBack_text d.path) <|
    .optional (readsBack_text d.type) <|
    .optional (readsBack_int64 d.major) <|
    .optional (readsBack_int64 d.minor) <|
    .optional (readsBack_uint32.option nofun d.fileMode) <|
    .optional (readsBack_uint32.option nofun d.uid) <|
    .optional (readsBack_uint32.option nofun d.gid) <|
    .nil _

/-- An id mapping, the id outside before the one inside. -/
theorem IdMapping.readsBack : record.codec.ReadsBack := fun m =>
  decode_of_fills independent.nodup <|
    .mandatory (readsBack_uint32 m.hostId) <|
    .mandatory (readsBack_uint32 m.containerId) <|
    .mandatory (readsBack_uint32 m.size) <|
    .nil _

/-- The resources. -/
theorem Resources.readsBack : record.codec.ReadsBack := fun r =>
  decode_of_fills independent.nodup <|
    .optional (readsBack_int32.option nofun r.oomScoreAdj) <|
    .nil _

/-- The block for Linux, with the kernel parameters as a map. -/
theorem LinuxBlock.readsBack : record.codec.ReadsBack := by
  intro l
  -- The entries of the map are read as a list, of which new settings are made.
  have hread : record.decode (record.toJson l).toTree =
      .ok { l with sysctl := .ofList l.sysctl.entries } :=
    decode_of_fills independent.nodup <|
      .optional (Namespace.readsBack.list l.namespaces) <|
      .optional (Device.readsBack.list l.devices) <|
      .optional (readsBack_text.members l.sysctl.entries) <|
      .optional (readsBack_text.list l.maskedPaths) <|
      .optional (readsBack_text.list l.readonlyPaths) <|
      .optional (IdMapping.readsBack.list l.uidMappings) <|
      .optional (IdMapping.readsBack.list l.gidMappings) <|
      .optional (readsBack_text.option nofun l.cgroupsPath) <|
      .optional (Resources.readsBack.option nofun l.resources) <|
      .nil _
  rwa [Settings.ofList_entries] at hread

/-! ## Documents -/

namespace Document

/-- The tree of a document is read as that document. -/
theorem readsBack : record.codec.ReadsBack := fun d =>
  decode_of_fills independent.nodup <|
    .optional (readsBack_text d.ociVersion) <|
    .optional (readsBack_text.option nofun d.hostname) <|
    .optional (PlatformBlock.readsBack.option nofun d.platform) <|
    .optional (RootBlock.readsBack.option nofun d.root) <|
    .optional (Process.readsBack.option nofun d.process) <|
    .optional (Mount.readsBack.list d.mounts) <|
    .optional (LinuxBlock.readsBack.option nofun d.linux) <|
    .nil _

/-- Every text of the tree of a document is read as that document, however it is spaced and
    spelled. -/
private theorem decode_of_isText {d : Document} {bytes : Text.Bytes}
    (h : Json.IsText d.toJson.toTree bytes) : decode bytes = .ok d := by
  have hparse : Json.parse bytes = ⟨d.toJson.toTree, false⟩ := (Json.isText_iff.mp h).1
  have hread : record.decode d.toJson.toTree = .ok d := readsBack d
  simp [decode, Json.decodeDocument, hparse, hread, bind, Except.bind, pure, Except.pure]

/-- What is written for a document is read as that document. -/
theorem decode_render (d : Document) : decode (Text.encode d.render) = .ok d :=
  decode_of_isText d.toJson.isText_render

end Document

end ContainerAudit
