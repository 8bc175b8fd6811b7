import ContainerAudit.Check.Registry
import ContainerAudit.Proofs.Check.Collecting
import ContainerAudit.Proofs.Check.MountOrder
import ContainerAudit.Proofs.Path.Canonical
import ContainerAudit.Proofs.Replica.Conforming

/-!
# Checks of the conforming replica

`Replica.conforming` is written without looking at the checks.  Here each check is shown to hold
on it, for every document of which no declaration undoes another one (`Document.Satisfiable`).  Most
checks need no such condition; the others say in their statements which part of it they use.

## Key results

- `mountOrder_conforming`, `defaultFilesystems_conforming`: declared mounts on top of default ones
- `devices_conforming`: device numbers and modes are read back as they were declared
- `run_conforming`: each check that applies holds
-/

namespace ContainerAudit

/-- Documents of which a runtime can satisfy every declaration at once. -/
structure Document.Satisfiable (d : Document) : Prop where
  /-- No mount is made at or above the place of an earlier one. -/
  mounts_stack : (Check.destinations d).Pairwise fun earlier later =>
    later ≠ earlier ∧ Path.isProperAncestor later earlier = false
  /-- A mount at a default mountpoint is of the file system that belongs there. -/
  filesystems_kept : ∀ m ∈ d.mounts, ∀ entry ∈ Layout.filesystems,
    Path.canonical m.destination = entry.1 → m.fstype = entry.2
  env_distinct : (d.declaredEnv.map fun entry => (Process.splitEntry entry).1).Nodup
  limits_known : ∀ l ∈ d.declaredLimits, Limits.isKnown l.name = true
  limits_distinct : (d.declaredLimits.map (·.name)).Nodup
  devices_distinct : (d.declaredDevices.map fun node => Path.keyOf node.path).Nodup
  devices_typed : ∀ node ∈ d.declaredDevices, node.type ∈ ["c", "u", "b", "p"]
  /-- The numbers of a device fit into a device number; a pipe has none. -/
  devices_numbered : ∀ node ∈ d.declaredDevices, node.type ≠ "p" →
    (0 ≤ node.major.toInt ∧ node.major.toInt ≤ 0xfff) ∧
      0 ≤ node.minor.toInt ∧ node.minor.toInt ≤ 0xfffff
  /-- No default device node is replaced by a pipe. -/
  devices_kept : ∀ node ∈ d.declaredDevices, ∀ path ∈ Layout.devicesFor d.terminal,
    Path.keyOf node.path = Path.keyOf path → node.type ≠ "p"
  /-- A root that may be written to is not declared as a read-only path. -/
  root_protected : d.readonlyRoot = true ∨
    ∀ path ∈ Check.declaredReadonly d, Path.keyOf path ≠ Path.keyOf "/"

namespace Check

open ContainerAudit.Path (canonical)
open Findings (compare_self settle_collect_eq_nil_iff)
open Replica (conforming conformingDevice)

section

variable (d : Document) (host : Platform)

/-- A question to the conforming replica, as a check asks it. -/
private theorem query_conforming {q : Question} {a : q.Answer} (h : (conforming d).lookUp q = .ok a)
    (what : String) : ((conforming d).system host).query q what = .ok a :=
  System.query_of_ok ((Replica.answer_conforming d q).trans h) what

/-! ## The process -/

/-- The process has the declared user id, or 0 if no process is declared. -/
private theorem uid_conforming : uid d ((conforming d).system host) = .ok () := by
  have huid : ((conforming d).system host).uid = (d.process.map (·.user.uid)).getD 0 := by
    rw [Replica.conforming_eq]
    rfl
  unfold uid
  rw [huid]
  cases d.process with
  | none => rfl
  | some p => exact expect_self _ _ p.user.uid

/-- Likewise for the group id. -/
private theorem gid_conforming : gid d ((conforming d).system host) = .ok () := by
  have hgid : ((conforming d).system host).gid = (d.process.map (·.user.gid)).getD 0 := by
    rw [Replica.conforming_eq]
    rfl
  unfold gid
  rw [hgid]
  cases d.process with
  | none => rfl
  | some p => exact expect_self _ _ p.user.gid

/-- The process is in the declared groups. -/
private theorem groups_conforming : groups d ((conforming d).system host) = .ok () := by
  unfold groups
  cases hp : d.process with
  | none => rfl
  | some p =>
    have hanswer : (conforming d).lookUp .groups = .ok p.user.additionalGids := by
      rw [Replica.conforming_eq, hp]
      rfl
    simp only [query_conforming d host hanswer, liftM_ok, Findings.ok_bind]
    simp

/-- An empty working directory is not asked for. -/
private theorem workingDirectory_conforming :
    workingDirectory d ((conforming d).system host) = .ok () := by
  unfold workingDirectory
  cases hp : d.process with
  | none => rfl
  | some p =>
    by_cases hcwd : p.cwd.isEmpty
    · simp [hcwd]
    · have hanswer : (conforming d).lookUp .workingDirectory = .ok (Text.encode p.cwd) := by
        rw [Replica.conforming_eq]
        simp only [Replica.lookUp, hp, Option.map_some, Option.getD_some, if_neg hcwd]
      simp [query_conforming d host hanswer, hcwd, require]

/-- The process has the declared arguments. -/
private theorem arguments_conforming : arguments d ((conforming d).system host) = .ok () := by
  unfold arguments
  cases hp : d.process with
  | none => rfl
  | some p =>
    have hanswer : (conforming d).lookUp .arguments = .ok p.args := by
      rw [Replica.conforming_eq, hp]
      rfl
    -- Both vectors are the declared one, so each pair holds the same argument twice.
    have hequal : ∀ entry ∈ (p.args.zip p.args).zipIdx, entry.1.1 = entry.1.2 := by
      rintro ⟨⟨expected, actual⟩, i⟩ hentry
      rw [List.mem_zipIdx_iff_getElem?, List.getElem?_zip_eq_some] at hentry
      exact Option.some.inj (hentry.1.symm.trans hentry.2)
    simp only [query_conforming d host hanswer, liftM_ok, Findings.ok_bind, ne_eq,
      not_true_eq_false, if_false, conclude_eq_ok_iff, List.flatMap_eq_nil_iff]
    intro entry hentry
    rw [hequal entry hentry, compare_self]

/-- The flag is set as it is declared. -/
private theorem noNewPrivileges_conforming :
    noNewPrivileges d ((conforming d).system host) = .ok () := by
  unfold noNewPrivileges
  cases hp : d.process with
  | none => rfl
  | some p =>
    have hanswer : (conforming d).lookUp .noNewPrivileges = .ok p.noNewPrivileges := by
      rw [Replica.conforming_eq, hp]
      rfl
    simp only [query_conforming d host hanswer, liftM_ok, Findings.ok_bind]
    exact expect_self _ _ _

/-- A process without declared capabilities holds none, like one that declares empty sets. -/
private theorem capabilities_conforming : capabilities d ((conforming d).system host) = .ok () := by
  unfold capabilities
  cases hp : d.process with
  | none => rfl
  | some p =>
    have hanswer : (conforming d).lookUp .capabilities =
        .ok ((p.capabilities.map Replica.conformingCapabilities).getD (.empty 40)) := by
      rw [Replica.conforming_eq, hp]
      rfl
    -- In either case a capability is held exactly if it is among the declared names.
    have hhas (set : CapabilitySet) (c : Capability) :
        ((p.capabilities.map Replica.conformingCapabilities).getD (.empty 40)).has set c =
          ((p.capabilities.getD {}).inSet set).contains c.name := by
      cases p.capabilities with
      | some declared => exact Replica.has_conformingCapabilities declared set c
      | none => cases set <;> simp [HeldCapabilities.has_empty, CapabilityNames.inSet]
    simp [query_conforming d host hanswer, capabilityFindings, hhas, Findings.ensure]

variable {d} in
/-- Variables are declared once each. -/
private theorem environment_conforming
    (hdistinct : (d.declaredEnv.map fun entry => (Process.splitEntry entry).1).Nodup) :
    environment d ((conforming d).system host) = .ok () := by
  rw [environment_eq, conclude_eq_ok_iff, List.flatMap_eq_nil_iff]
  intro entry hentry
  have hvalue : ((conforming d).system host).env (Process.splitEntry entry).1 =
      some (Process.splitEntry entry).2 := Replica.env_of_declared hdistinct hentry
  simp [variableFindings, hvalue]

variable {d} in
/-- Limits are known and declared once each. -/
private theorem rlimits_conforming (hknown : ∀ l ∈ d.declaredLimits, Limits.isKnown l.name = true)
    (hdistinct : (d.declaredLimits.map (·.name)).Nodup) :
    rlimits d ((conforming d).system host) = .ok () := by
  rw [rlimits_eq, conclude_eq_ok_iff, settle_collect_eq_nil_iff]
  intro l hl
  have hanswer := Replica.answer_limits_of_declared hdistinct hl
  rw [Replica.answer_conforming] at hanswer
  rw [limitFindings, if_pos (hknown l hl), query_conforming d host hanswer, Findings.ok_bind,
    compare_self, compare_self]
  rfl

/-- The score is the declared one; without one it is not asked for. -/
private theorem oomScoreAdj_conforming : oomScoreAdj d ((conforming d).system host) = .ok () := by
  unfold oomScoreAdj
  cases hscore : d.oomScoreAdj with
  | none => rfl
  | some expected =>
    have hanswer : (conforming d).lookUp .oomScoreAdj = .ok expected := by
      rw [Replica.conforming_eq, hscore]
      rfl
    simp only [query_conforming d host hanswer, liftM_ok, Findings.ok_bind]
    exact expect_self _ _ _

/-! ## The container -/

/-- The hostname is the declared one; without one it is not asked for. -/
private theorem hostname_conforming : hostname d ((conforming d).system host) = .ok () := by
  have hanswer : (conforming d).lookUp .hostname = .ok (d.hostname.getD "") := by
    rw [Replica.conforming_eq]
    rfl
  unfold hostname
  simp only [query_conforming d host hanswer, liftM_ok, Findings.ok_bind, expect_self, ite_self]

/-- The names of the kernel parameters are distinct, for they are sorted. -/
private theorem sysctl_conforming : sysctl d ((conforming d).system host) = .ok () := by
  rw [sysctl_eq, conclude_eq_ok_iff, settle_collect_eq_nil_iff]
  intro entry hentry
  -- The replica holds the declared parameters as they are, so each is found under its name.
  have hfind : Entries.find? id (conforming d).sysctls entry.1 = some entry.2 := by
    rw [Replica.conforming_eq]
    unfold Document.declaredSettings at hentry
    cases hl : d.linux with
    | none => simp [hl] at hentry
    | some l =>
      rw [hl] at hentry
      exact Entries.find?_of_mem id l.sysctl.nodup_names hentry
  have hanswer : (conforming d).lookUp (.sysctl entry.1) = .ok entry.2 := by
    rw [Replica.lookUp, hfind]
    rfl
  simp only [sysctlFindings, query_conforming d host hanswer, Findings.ok_bind, compare_self]
  rfl

/-- The declared mappings are the live ones. -/
private theorem mappings_eq_ok {kind : IdKind} {declared : List IdMapping} {s : System}
    (hanswer : s.query (.idMap kind) s!"{kind.name} mappings" = .ok declared) :
    mappings kind declared s = .ok () := by
  unfold mappings
  rw [hanswer, liftM_ok, Findings.ok_bind]
  simp

/-- The user ids are mapped as declared. -/
private theorem uidMappings_conforming : uidMappings d ((conforming d).system host) = .ok () := by
  refine mappings_eq_ok (query_conforming d host ?_ _)
  rw [Replica.conforming_eq]
  rfl

/-- The group ids are mapped as declared. -/
private theorem gidMappings_conforming : gidMappings d ((conforming d).system host) = .ok () := by
  refine mappings_eq_ok (query_conforming d host ?_ _)
  rw [Replica.conforming_eq]
  rfl

/-! ## Protected paths -/

/-- Only the root can be written to, and only if it is not read-only. -/
private theorem isWritable_conforming (path : String) :
    isWritable ((conforming d).system host) path =
      (!d.readonlyRoot && decide (Path.keyOf "/" = Path.keyOf path)) := by
  have hroot : Path.key (Text.encode "/") = Path.keyOf "/" := rfl
  have hanswer : ((conforming d).system host).ask (.writeProbe path) =
      (conforming d).lookUp (.writeProbe path) := Replica.answer_conforming d (.writeProbe path)
  unfold isWritable
  rw [hanswer]
  simp only [Replica.lookUp, Replica.conforming_eq]
  -- The one path that can be written to is the root, compared by its canonical spelling.
  cases d.readonlyRoot with
  | true => rfl
  | false =>
    by_cases hkey : Path.keyOf "/" = Path.keyOf path <;>
      simp [hroot, hkey, Entries.find?, Except.isOk, Except.toBool]

/-- The root can be written to exactly if it is not read-only. -/
private theorem rootFilesystem_conforming :
    rootFilesystem d ((conforming d).system host) = .ok () := by
  unfold rootFilesystem
  rw [isWritable_conforming]
  cases d.readonlyRoot <;> rfl

/-- There is nothing to read at any path. -/
private theorem maskedPaths_conforming : maskedPaths d ((conforming d).system host) = .ok () := by
  rw [maskedPaths_eq, conclude_eq_ok_iff, settle_collect_eq_nil_iff]
  intro path _
  have hanswer : (conforming d).lookUp (.isReadable path) = .ok false := by
    rw [Replica.conforming_eq]
    rfl
  rw [maskedPathFindings, query_conforming d host hanswer]
  rfl -- nothing was read

variable {d} in
/-- A root that may be written to is not among the read-only paths. -/
private theorem readonlyPaths_conforming
    (hroot : d.readonlyRoot = true ∨
      ∀ path ∈ declaredReadonly d, Path.keyOf path ≠ Path.keyOf "/") :
    readonlyPaths d ((conforming d).system host) = .ok () := by
  rw [readonlyPaths, conclude_eq_ok_iff, List.map_eq_nil_iff, List.filter_eq_nil_iff]
  intro path hpath
  rw [isWritable_conforming]
  rcases hroot with hroot | hroot
  · simp [hroot] -- nothing can be written to
  · simp [Ne.symm (hroot path hpath)] -- only the root can, and this is another path

/-! ## Mounts -/

/-- The records of the default file systems. -/
def defaultRecords : MountTable :=
  Layout.filesystems.map fun (mountpoint, fstype) => ⟨mountpoint, fstype, fstype⟩

/-- The record of a declared mount. -/
def declaredRecord (m : Mount) : LiveMount :=
  ⟨canonical m.destination, m.fstype, canonical m.source⟩

/-- The table holds the default file systems and then the declared mounts. -/
private theorem lookUp_mounts_conforming :
    (conforming d).lookUp .mounts = .ok (defaultRecords ++ d.mounts.map declaredRecord) := by
  rw [Replica.conforming_eq]
  rfl

/-- Each declared mount is in the table. -/
private theorem mountsExist_conforming : mountsExist d ((conforming d).system host) = .ok () := by
  unfold mountsExist
  rw [query_conforming d host (lookUp_mounts_conforming d), liftM_ok, Findings.ok_bind,
    conclude_eq_ok_iff, List.flatMap_eq_nil_iff]
  intro m hm
  -- The record that was made for the mount is the one that is looked for.
  have hrecord : declaredRecord m ∈ d.mounts.map declaredRecord :=
    List.mem_map_of_mem (List.mem_filter.mp hm).1
  have hat : canonical (declaredRecord m).mountpoint = canonical m.destination :=
    Path.canonical_canonical m.destination
  have hthere : ((defaultRecords ++ d.mounts.map declaredRecord).mountsAt
      (canonical m.destination)).any
        (fun r => r.fstype = m.fstype && canonical r.source = canonical m.source) = true := by
    refine List.any_eq_true.mpr ⟨declaredRecord m, List.mem_filter.mpr ⟨?_, by simpa using hat⟩, ?_⟩
    · exact List.mem_append_right _ hrecord
    · simp [declaredRecord, Path.canonical_canonical]
  simp [mountFindings, hthere, Findings.ensure]

variable {d host} in
/-- The declared mounts are the last ones in the table, and later ones shadow no earlier ones. -/
theorem mountOrder_conforming (hstack : (d.intendedPlatform host).stacksMounts = true)
    (hmounts : (destinations d).Pairwise fun earlier later =>
      later ≠ earlier ∧ Path.isProperAncestor later earlier = false) :
    mountOrder d ((conforming d).system host) = .ok () := by
  have hdistinct : (destinations d).Nodup := hmounts.imp fun h => Ne.symm h.1
  -- No mount is above an earlier one, so neither of the two is shadowed.
  have hordered (i j : Nat) (hij : i < j) : ¬IsNested (destinations d) j i := by
    rintro ⟨outer, inner, hj, hi, hanc⟩
    obtain ⟨hjlt, rfl⟩ := List.getElem?_eq_some_iff.mp hj
    obtain ⟨hilt, rfl⟩ := List.getElem?_eq_some_iff.mp hi
    have := (List.pairwise_iff_getElem.mp hmounts i j hilt hjlt hij).2
    simp [hanc] at this
  -- The default file systems stand before the declared mounts and count for nothing here.
  have hrecs : (d.mounts.map declaredRecord).map (fun r => canonical r.mountpoint) =
      destinations d := by
    simp [destinations, declaredRecord, Path.canonical_canonical]
  have hask : ((conforming d).system host).ask .mounts =
      .ok (defaultRecords ++ d.mounts.map declaredRecord) :=
    (Replica.answer_conforming d _).trans (lookUp_mounts_conforming d)
  exact (mountOrder_append_eq_ok_iff hstack hdistinct hask hrecs).mpr
    fun a b _ => ⟨hordered a, fun _ => hordered b⟩

/-- Something is mounted at the mountpoint, and all that is mounted there is of the file system. -/
private theorem filesystemFindings_eq_nil {live : MountTable} {mountpoint fstype : String}
    (hsome : ∃ r ∈ live, canonical r.mountpoint = mountpoint)
    (hall : ∀ r ∈ live, canonical r.mountpoint = mountpoint → r.fstype = fstype) :
    filesystemFindings live mountpoint fstype = [] := by
  have hmem (r : LiveMount) :
      r ∈ live.mountsAt mountpoint ↔ r ∈ live ∧ canonical r.mountpoint = mountpoint := by
    simp [MountTable.mountsAt]
  unfold filesystemFindings
  split
  · -- the last mount there is of the file system, as all are
    rename_i r hlast
    obtain ⟨hr, hat⟩ := (hmem r).mp (List.mem_of_getLast? hlast)
    rw [hall r hr hat, compare_self]
  · -- nothing is mounted there, against the assumption
    rename_i hnone
    obtain ⟨r, hr⟩ := hsome
    have hthere := (hmem r).mpr hr
    rw [List.getLast?_eq_none_iff.mp hnone] at hthere
    exact absurd hthere List.not_mem_nil

variable {d} in
/-- Whatever is mounted at a default mountpoint is of the file system that belongs there. -/
theorem defaultFilesystems_conforming
    (hkept : ∀ m ∈ d.mounts, ∀ entry ∈ Layout.filesystems,
      canonical m.destination = entry.1 → m.fstype = entry.2) :
    defaultFilesystems d ((conforming d).system host) = .ok () := by
  -- The records of the default file systems by themselves, which is a fixed table.
  have hdefault : ∀ entry ∈ Layout.filesystems,
      (∃ r ∈ defaultRecords, canonical r.mountpoint = entry.1) ∧
        ∀ r ∈ defaultRecords, canonical r.mountpoint = entry.1 → r.fstype = entry.2 := by
    decide +kernel
  unfold defaultFilesystems
  rw [query_conforming d host (lookUp_mounts_conforming d), liftM_ok, Findings.ok_bind,
    conclude_eq_ok_iff, List.flatMap_eq_nil_iff]
  intro entry hentry
  obtain ⟨⟨r₀, hr₀, hat₀⟩, hfstype⟩ := hdefault entry hentry
  refine filesystemFindings_eq_nil ⟨r₀, List.mem_append_left _ hr₀, hat₀⟩ fun r hr hat => ?_
  rcases List.mem_append.mp hr with hr | hr
  · exact hfstype r hr hat
  · -- A declared mount at the mountpoint keeps the file system.
    obtain ⟨m, hm, rfl⟩ := List.mem_map.mp hr
    refine hkept m hm entry hentry ?_
    rw [← hat]
    exact (Path.canonical_canonical m.destination).symm

/-! ## Device nodes and links -/

variable {d} in
/-- A default device node may be declared again, but not as a pipe. -/
private theorem defaultDevices_conforming
    (hkept : ∀ node ∈ d.declaredDevices, ∀ path ∈ Layout.devicesFor d.terminal,
      Path.keyOf node.path = Path.keyOf path → node.type ≠ "p") :
    defaultDevices d ((conforming d).system host) = .ok () := by
  rw [defaultDevices_eq, conclude_eq_ok_iff, settle_collect_eq_nil_iff]
  intro path hpath
  obtain ⟨stat, hanswer, hdevice⟩ :=
    Replica.answer_stat_of_default hpath fun node hnode => hkept node hnode path hpath
  have hask : ((conforming d).system host).ask (.stat path) = .ok stat := hanswer
  rw [defaultDeviceFindings, statIfThere, hask]
  simp [hdevice, Findings.ensure, pure, Except.pure]

/-- The default links lead where they should. -/
private theorem defaultSymlinks_conforming :
    defaultSymlinks d ((conforming d).system host) = .ok () := by
  -- The links of the replica are a fixed table, as are those that are asked for.
  have hlinks : ∀ entry ∈ Layout.symlinks,
      Entries.find? Path.key Replica.defaultLinks (Path.keyOf entry.1) =
        some (Text.encode entry.2) := by
    decide +kernel
  rw [defaultSymlinks_eq, conclude_eq_ok_iff, settle_collect_eq_nil_iff]
  intro entry hentry
  have hask : ((conforming d).system host).ask (.linkTarget entry.1) =
      .ok (Text.encode entry.2) := by
    refine (Replica.answer_conforming d _).trans ?_
    rw [Replica.conforming_eq]
    simp [Replica.lookUp, hlinks entry hentry, Replica.found]
  have hkey : Path.key (Text.encode entry.2) = Path.keyOf entry.2 := rfl
  simp [symlinkFindings, hask, hkey, Findings.ensure]

/-- The file for a declared device node is of its type. -/
private theorem kind_conformingDevice {node : Device} (htype : node.type ∈ ["c", "u", "b", "p"]) :
    (conformingDevice node).kind.fits node.type = true ∧
      ((conformingDevice node).kind ≠ .fifo → node.type ≠ "p") := by
  have hkind : (conformingDevice node).kind =
      DeviceKind.ofMode (if node.type = "b" then DeviceKind.blockType
        else if node.type = "p" then DeviceKind.fifoType else DeviceKind.charType) :=
    DeviceKind.ofMode_typed _ _
  -- The permissions have no bits among those of the type.
  rw [hkind]
  simp only [List.mem_cons, List.not_mem_nil, or_false] at htype
  rcases htype with h | h | h | h <;> rw [h] <;> decide

/-- It has the declared permissions. -/
private theorem permissions_conformingDevice (node : Device) :
    (conformingDevice node).permissions = (node.fileMode.getD 0o666) &&& (0o777 : UInt32) := by
  refine mode_and_permissions _ ?_
  split
  · decide
  · split <;> decide

/-- What is declared of a device node is read back from its file. -/
private theorem nodeFindings_conformingDevice {node : Device}
    (htype : node.type ∈ ["c", "u", "b", "p"])
    (hnumbers : node.type ≠ "p" → (0 ≤ node.major.toInt ∧ node.major.toInt ≤ 0xfff) ∧
      0 ≤ node.minor.toInt ∧ node.minor.toInt ≤ 0xfffff) :
    nodeFindings node (conformingDevice node) = [] := by
  obtain ⟨hfits, hpipe⟩ := kind_conformingDevice htype
  -- The number, which a pipe does not have.
  have hnumber : numberFindings node (conformingDevice node) = [] := by
    unfold numberFindings
    split
    · rfl
    · rename_i hkind
      obtain ⟨⟨hmajlo, hmajhi⟩, hminlo, hminhi⟩ := hnumbers (hpipe hkind)
      have hmajor : (conformingDevice node).device.major.toInt64 = node.major :=
        DeviceNumber.toInt64_major_ofParts hmajlo hmajhi
      have hminor : (conformingDevice node).device.minor.toInt64 = node.minor :=
        DeviceNumber.toInt64_minor_ofParts hminlo hminhi
      rw [hmajor, hminor, compare_self, compare_self]
      rfl
  -- The permissions, of which both sides keep the lowest nine bits.
  have hmode : attributeFindings s!"device {node.path} file mode" (Text.octal ·.toNat)
      (node.fileMode.map (· &&& (0o777 : UInt32))) (conformingDevice node).permissions = [] := by
    rw [permissions_conformingDevice]
    cases node.fileMode with
    | none => rfl
    | some mode => simp [attributeFindings]
  -- The owner and the group, each if it is declared.
  have huid : attributeFindings s!"device {node.path} uid" toString node.uid
      (conformingDevice node).uid = [] := by
    unfold conformingDevice
    cases node.uid with
    | none => rfl
    | some uid => exact compare_self _ _ _
  have hgid : attributeFindings s!"device {node.path} gid" toString node.gid
      (conformingDevice node).gid = [] := by
    unfold conformingDevice
    cases node.gid with
    | none => rfl
    | some gid => exact compare_self _ _ _
  rw [nodeFindings, if_pos hfits, hnumber, hmode, huid, hgid]
  rfl

variable {d} in
/-- Device nodes are declared once each, with a type and with numbers that fit. -/
theorem devices_conforming
    (hdistinct : (d.declaredDevices.map fun node => Path.keyOf node.path).Nodup)
    (htyped : ∀ node ∈ d.declaredDevices, node.type ∈ ["c", "u", "b", "p"])
    (hnumbered : ∀ node ∈ d.declaredDevices, node.type ≠ "p" →
      (0 ≤ node.major.toInt ∧ node.major.toInt ≤ 0xfff) ∧
        0 ≤ node.minor.toInt ∧ node.minor.toInt ≤ 0xfffff) :
    devices d ((conforming d).system host) = .ok () := by
  rw [devices_eq, conclude_eq_ok_iff, settle_collect_eq_nil_iff]
  intro node hnode
  have hask : ((conforming d).system host).ask (.stat node.path) = .ok (conformingDevice node) :=
    Replica.answer_stat_of_declared hdistinct hnode
  rw [deviceFindings, statIfThere, hask]
  simp [nodeFindings_conformingDevice (htyped node hnode) (hnumbered node hnode), pure, Except.pure]

/-! ## All checks -/

variable {d} in
/-- Each check that applies holds on the conforming replica. -/
theorem run_conforming (h : d.Satisfiable) :
    ∀ c ∈ registry, c.applies (d.intendedPlatform host) = true →
      c.run d ((conforming d).system host) = .ok () := by
  simp only [registry, List.forall_mem_cons]
  exact ⟨fun _ => rootFilesystem_conforming d host, fun _ => uid_conforming d host,
    fun _ => gid_conforming d host, fun _ => groups_conforming d host,
    fun _ => workingDirectory_conforming d host, fun _ => arguments_conforming d host,
    fun _ => environment_conforming host h.env_distinct,
    fun _ => noNewPrivileges_conforming d host, fun _ => capabilities_conforming d host,
    fun _ => hostname_conforming d host,
    fun _ => rlimits_conforming host h.limits_known h.limits_distinct,
    fun _ => mountsExist_conforming d host,
    fun hstack => mountOrder_conforming hstack h.mounts_stack,
    fun _ => defaultFilesystems_conforming host h.filesystems_kept,
    fun _ => defaultDevices_conforming host h.devices_kept,
    fun _ => defaultSymlinks_conforming d host,
    fun _ => devices_conforming host h.devices_distinct h.devices_typed h.devices_numbered,
    fun _ => sysctl_conforming d host, fun _ => maskedPaths_conforming d host,
    fun _ => readonlyPaths_conforming host h.root_protected,
    fun _ => oomScoreAdj_conforming d host, fun _ => uidMappings_conforming d host,
    fun _ => gidMappings_conforming d host, by simp⟩

end

end Check

end ContainerAudit
