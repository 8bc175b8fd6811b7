import ContainerAudit.Document.Basic
import ContainerAudit.Json.Decode

/-!
# Documents as JSON

For each block of a document, the record by which it is read and written.  A writer writes every
field, in the order in which the record lists them, and `null` for what is absent.
-/

namespace ContainerAudit

open Json (Record Value)

/-- The fields of the platform block. -/
def PlatformBlock.record : Record PlatformBlock where
  name := "PlatformSpec"
  fields := [
    .optional "os" .text (·.os) fun v r => { r with os := v },
    .optional "arch" .text (·.arch) fun v r => { r with arch := v }]
  start := {}

/-- The fields of the root block. -/
def RootBlock.record : Record RootBlock where
  name := "Root"
  fields := [
    .optional "path" .text (·.path) fun v r => { r with path := v },
    .optional "readonly" .boolean (·.readonly) fun v r => { r with readonly := v }]
  start := {}

/-- The fields of a user. -/
def User.record : Record User where
  name := "User"
  fields := [
    .optional "uid" .uint32 (·.uid) fun v r => { r with uid := v },
    .optional "gid" .uint32 (·.gid) fun v r => { r with gid := v },
    .optional "additionalGids" (.list .uint32) (·.additionalGids)
      fun v r => { r with additionalGids := v }]
  start := {}

/-- The fields of declared capabilities, one for each set. -/
def CapabilityNames.record : Record CapabilityNames where
  name := "Capabilities"
  fields := [
    .optional "bounding" (.list .text) (·.bounding) fun v r => { r with bounding := v },
    .optional "effective" (.list .text) (·.effective) fun v r => { r with effective := v },
    .optional "inheritable" (.list .text) (·.inheritable) fun v r => { r with inheritable := v },
    .optional "permitted" (.list .text) (·.permitted) fun v r => { r with permitted := v },
    .optional "ambient" (.list .text) (·.ambient) fun v r => { r with ambient := v }]
  start := {}

/-- The fields of a declared limit, none of which may be left out. -/
def DeclaredLimit.record : Record DeclaredLimit where
  name := "Rlimit"
  fields := [
    .mandatory "type" .text (·.name) fun v r => { r with name := v },
    .mandatory "hard" .uint64 (·.hard) fun v r => { r with hard := v },
    .mandatory "soft" .uint64 (·.soft) fun v r => { r with soft := v }]
  start := ⟨"", 0, 0⟩

/-- The fields of the process block. -/
def Process.record : Record Process where
  name := "Process"
  fields := [
    .optional "terminal" .boolean (·.terminal) fun v r => { r with terminal := v },
    .optional "user" User.record.codec (·.user) fun v r => { r with user := v },
    .optional "args" (.list .text) (·.args) fun v r => { r with args := v },
    .optional "env" (.list .text) (·.env) fun v r => { r with env := v },
    .optional "cwd" .text (·.cwd) fun v r => { r with cwd := v },
    .optional "capabilities" (.option CapabilityNames.record.codec) (·.capabilities)
      fun v r => { r with capabilities := v },
    .optional "rlimits" (.list DeclaredLimit.record.codec) (·.rlimits)
      fun v r => { r with rlimits := v },
    .optional "noNewPrivileges" .boolean (·.noNewPrivileges)
      fun v r => { r with noNewPrivileges := v },
    .optional "oomScoreAdj" (.option .int32) (·.oomScoreAdj)
      fun v r => { r with oomScoreAdj := v }]
  start := {}

/-- The fields of a declared mount; its type is that of the file system. -/
def Mount.record : Record Mount where
  name := "Mount"
  fields := [
    .optional "destination" .text (·.destination) fun v r => { r with destination := v },
    .optional "type" .text (·.fstype) fun v r => { r with fstype := v },
    .optional "source" .text (·.source) fun v r => { r with source := v },
    .optional "options" (.list .text) (·.options) fun v r => { r with options := v }]
  start := {}

/-- The fields of a namespace. -/
def Namespace.record : Record Namespace where
  name := "Namespace"
  fields := [
    .optional "type" .text (·.type) fun v r => { r with type := v },
    .optional "path" (.option .text) (·.path) fun v r => { r with path := v }]
  start := {}

/-- The fields of a declared device. -/
def Device.record : Record Device where
  name := "Device"
  fields := [
    .optional "path" .text (·.path) fun v r => { r with path := v },
    .optional "type" .text (·.type) fun v r => { r with type := v },
    .optional "major" .int64 (·.major) fun v r => { r with major := v },
    .optional "minor" .int64 (·.minor) fun v r => { r with minor := v },
    .optional "fileMode" (.option .uint32) (·.fileMode) fun v r => { r with fileMode := v },
    .optional "uid" (.option .uint32) (·.uid) fun v r => { r with uid := v },
    .optional "gid" (.option .uint32) (·.gid) fun v r => { r with gid := v }]
  start := {}

/-- The fields of an id mapping, none of which may be left out. -/
def IdMapping.record : Record IdMapping where
  name := "IdMapping"
  fields := [
    .mandatory "hostID" .uint32 (·.hostId) fun v r => { r with hostId := v },
    .mandatory "containerID" .uint32 (·.containerId) fun v r => { r with containerId := v },
    .mandatory "size" .uint32 (·.size) fun v r => { r with size := v }]
  start := ⟨0, 0, 0⟩

/-- The fields of the resources of the control group. -/
def Resources.record : Record Resources where
  name := "Resources"
  fields := [
    .optional "oomScoreAdj" (.option .int32) (·.oomScoreAdj)
      fun v r => { r with oomScoreAdj := v }]
  start := {}

/-- The fields of the block for Linux.  Of a kernel parameter that is given more than once, the last
    value counts. -/
def LinuxBlock.record : Record LinuxBlock where
  name := "Linux"
  fields := [
    .optional "namespaces" (.list Namespace.record.codec) (·.namespaces)
      fun v r => { r with namespaces := v },
    .optional "devices" (.list Device.record.codec) (·.devices) fun v r => { r with devices := v },
    .optional "sysctl" (.members .text) (·.sysctl.entries)
      fun v r => { r with sysctl := .ofList v },
    .optional "maskedPaths" (.list .text) (·.maskedPaths) fun v r => { r with maskedPaths := v },
    .optional "readonlyPaths" (.list .text) (·.readonlyPaths)
      fun v r => { r with readonlyPaths := v },
    .optional "uidMappings" (.list IdMapping.record.codec) (·.uidMappings)
      fun v r => { r with uidMappings := v },
    .optional "gidMappings" (.list IdMapping.record.codec) (·.gidMappings)
      fun v r => { r with gidMappings := v },
    .optional "cgroupsPath" (.option .text) (·.cgroupsPath) fun v r => { r with cgroupsPath := v },
    .optional "resources" (.option Resources.record.codec) (·.resources)
      fun v r => { r with resources := v }]
  start := {}

namespace Document

/-- The fields of a document. -/
def record : Record Document where
  name := "Spec"
  fields := [
    .optional "ociVersion" .text (·.ociVersion) fun v r => { r with ociVersion := v },
    .optional "hostname" (.option .text) (·.hostname) fun v r => { r with hostname := v },
    .optional "platform" (.option PlatformBlock.record.codec) (·.platform)
      fun v r => { r with platform := v },
    .optional "root" (.option RootBlock.record.codec) (·.root) fun v r => { r with root := v },
    .optional "process" (.option Process.record.codec) (·.process)
      fun v r => { r with process := v },
    .optional "mounts" (.list Mount.record.codec) (·.mounts) fun v r => { r with mounts := v },
    .optional "linux" (.option LinuxBlock.record.codec) (·.linux) fun v r => { r with linux := v }]
  start := {}

/-- The document as a JSON value. -/
def toJson (d : Document) : Value := record.toJson d

/-- The text of a document. -/
def render (d : Document) : String := d.toJson.render

/-- Reads a document from a JSON text, whether or not all mandatory parts are there. -/
def decode (bytes : Text.Bytes) : Except Json.DecodeError Document :=
  Json.decodeDocument record.decode bytes

end Document

end ContainerAudit
