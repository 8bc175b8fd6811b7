import ContainerAudit.Replica.Basic

/-!
# The replica that conforms to a document

What a runtime makes that does all that a document says and nothing else: the default layout of
Linux containers with what the document declares on top of it.
-/

namespace ContainerAudit.Replica

open Text (Bytes)

/-- The numbers of the default device nodes. -/
def defaultDevices : List (String × UInt64 × UInt64) :=
  [("/dev/null", 1, 3), ("/dev/zero", 1, 5), ("/dev/full", 1, 7), ("/dev/random", 1, 8),
    ("/dev/urandom", 1, 9), ("/dev/tty", 5, 0), ("/dev/ptmx", 5, 2)]

/-- A character device that everyone may read and write. -/
def openDevice (major minor : UInt64) : FileStat :=
  ⟨DeviceKind.charType ||| 0o666, .ofParts major minor, 0, 0⟩

/-- The table with the default file systems and the declared mounts after them. -/
def conformingMounts (d : Document) : MountTable :=
  Layout.filesystems.map (fun (mountpoint, fstype) => ⟨mountpoint, fstype, fstype⟩) ++
    d.mounts.map fun m => ⟨Path.canonical m.destination, m.fstype, Path.canonical m.source⟩

/-- The sets with the known capabilities among the declared names. -/
def conformingCapabilities (declared : CapabilityNames) : HeldCapabilities :=
  CapabilitySet.all.foldl
    (fun held set =>
      ((declared.inSet set).filterMap Capability.ofName?).foldl
        (fun held c => held.set set c true) held)
    (.empty 40)

/-- The file for a declared device.  Of the types, only block devices and pipes are told apart
    from character devices. -/
def conformingDevice (d : Device) : FileStat :=
  let type :=
    if d.type = "b" then DeviceKind.blockType
    else if d.type = "p" then DeviceKind.fifoType
    else DeviceKind.charType
  { mode := type ||| ((d.fileMode.getD 0o666) &&& (0o777 : UInt32))
    device := .ofParts d.major.toUInt64 d.minor.toUInt64
    uid := d.uid.getD 0
    gid := d.gid.getD 0 }

/-- The default device nodes, with the console of a process with a terminal. -/
def defaultFiles (terminal : Bool) : List (Bytes × FileStat) :=
  defaultDevices.map (fun (path, major, minor) => (Text.encode path, openDevice major minor)) ++
    if terminal then [(Text.encode Layout.console, openDevice 136 0)] else []

/-- The default device nodes and the declared ones. -/
def conformingFiles (d : Document) : List (Bytes × FileStat) :=
  ((d.linux.map (·.devices)).getD []).foldl
    (fun files device =>
      Entries.insert Path.key (Text.encode device.path) (conformingDevice device) files)
    (defaultFiles d.terminal)

/-- The default symbolic links. -/
def defaultLinks : List (Bytes × Bytes) :=
  Layout.symlinks.map fun (link, target) => (Text.encode link, Text.encode target)

/-- A replica with what the process block says. -/
def withProcess (r : Replica) (p : Process) : Replica :=
  { r with
    uid := p.user.uid
    gid := p.user.gid
    groups := p.user.additionalGids
    cwd := if p.cwd.isEmpty then r.cwd else Text.encode p.cwd
    args := p.args
    env := (p.env.map Process.splitEntry).foldl
      (fun env (name, value) => Entries.insert id name value env) r.env
    noNewPrivileges := p.noNewPrivileges
    limits := p.rlimits.foldl
      (fun limits l => Entries.insert id l.name ⟨l.soft, l.hard⟩ limits) r.limits
    capabilities := (p.capabilities.map conformingCapabilities).getD r.capabilities }

/-- The replica of a faithful runtime. -/
def conforming (d : Document) : Replica :=
  let base : Replica :=
    { mounts := conformingMounts d
      writable := if d.readonlyRoot then [] else [(Text.encode "/", ())]
      hostname := d.hostname.getD ""
      oomScoreAdj := d.oomScoreAdj.getD 0
      files := conformingFiles d
      links := defaultLinks
      sysctls := (d.linux.map (·.sysctl.entries)).getD []
      uidMap := (d.linux.map (·.uidMappings)).getD []
      gidMap := (d.linux.map (·.gidMappings)).getD [] }
  match d.process with
  | some p => base.withProcess p
  | none => base

end ContainerAudit.Replica
