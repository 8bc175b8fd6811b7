import ContainerAudit.Proofs.Document.Declared
import ContainerAudit.Proofs.Entries
import ContainerAudit.Proofs.Live.Capability
import ContainerAudit.Proofs.Live.Device
import ContainerAudit.Replica.Conforming

/-!
# What the conforming replica answers

`Replica.conforming` sets declarations on top of defaults, one after another.  Here its answers are
described by the document alone: what it holds under a declared name where the names are distinct,
and that a default device node stays a device under the declared ones.

## Key results

- `conforming_eq`: the data of the conforming replica, part by part
- `answer_conforming`: a question is answered from the data, for nothing fails
- `has_conformingCapabilities`: each set holds the capabilities that are declared for it
- `answer_stat_of_declared`, `answer_stat_of_default`: the files for device nodes
-/

namespace ContainerAudit

namespace Replica

variable {d : Document}

/-! ## The data of the conforming replica -/

/-- A document without a process block leaves what belongs to a process at its defaults. -/
theorem conforming_eq (d : Document) :
    conforming d =
      { mounts := conformingMounts d
        capabilities :=
          ((d.process.bind (·.capabilities)).map conformingCapabilities).getD (.empty 40)
        uid := (d.process.map (·.user.uid)).getD 0
        gid := (d.process.map (·.user.gid)).getD 0
        groups := (d.process.map (·.user.additionalGids)).getD []
        cwd := (d.process.map fun p =>
          if p.cwd.isEmpty then Text.encode "/" else Text.encode p.cwd).getD (Text.encode "/")
        args := (d.process.map (·.args)).getD []
        env := d.declaredEnv.foldl (fun env entry =>
          Entries.insert id (Process.splitEntry entry).1 (Process.splitEntry entry).2 env) []
        noNewPrivileges := (d.process.map (·.noNewPrivileges)).getD false
        hostname := d.hostname.getD ""
        limits := d.declaredLimits.foldl
          (fun limits l => Entries.insert id l.name ⟨l.soft, l.hard⟩ limits) []
        sysctls := (d.linux.map (·.sysctl.entries)).getD []
        oomScoreAdj := d.oomScoreAdj.getD 0
        uidMap := (d.linux.map (·.uidMappings)).getD []
        gidMap := (d.linux.map (·.gidMappings)).getD []
        files := conformingFiles d
        links := defaultLinks
        writable := if d.readonlyRoot then [] else [(Text.encode "/", ())] } := by
  -- What is declared without a process block and what is taken from one are the same parts.
  unfold conforming Document.declaredEnv Document.declaredLimits
  cases d.process with
  | none => rfl
  | some p =>
    simp only [withProcess, List.foldl_map, Option.map_some, Option.bind_some, Option.getD_some]

/-- Nothing keeps the conforming replica from answering. -/
theorem answer_conforming (d : Document) (q : Question) :
    (conforming d).answer q = (conforming d).lookUp q := by
  have hfailing : (conforming d).failing = [] := by rw [conforming_eq]
  simp [answer, hfailing]

/-! ## The process -/

/-- A declared variable has the declared value. -/
theorem env_of_declared
    (hdistinct : (d.declaredEnv.map fun entry => (Process.splitEntry entry).1).Nodup)
    {entry : String} (hentry : entry ∈ d.declaredEnv) :
    Entries.find? id (conforming d).env (Process.splitEntry entry).1 =
      some (Process.splitEntry entry).2 := by
  rw [conforming_eq]
  exact Entries.find?_foldl_insert_of_mem id [] hdistinct hentry

/-- A declared limit has the declared values. -/
theorem answer_limits_of_declared (hdistinct : (d.declaredLimits.map (·.name)).Nodup)
    {l : DeclaredLimit} (hl : l ∈ d.declaredLimits) :
    (conforming d).answer (.limits l.name) = .ok ⟨l.soft, l.hard⟩ := by
  have hfind : Entries.find? id (conforming d).limits l.name = some ⟨l.soft, l.hard⟩ := by
    rw [conforming_eq]
    exact Entries.find?_foldl_insert_of_mem id [] hdistinct hl
  rw [answer_conforming]
  simp only [lookUp, hfind]
  rfl

/-- Capabilities that are put into a set. -/
private theorem has_foldl_set (a b : CapabilitySet) (c : Capability) (added : List Capability)
    (held : HeldCapabilities) :
    (added.foldl (fun held c => held.set a c true) held).has b c =
      (decide (a = b ∧ c ∈ added) || held.has b c) := by
  induction added generalizing held with
  | nil => simp
  | cons first rest ih =>
    rw [List.foldl_cons, ih, HeldCapabilities.has_set]
    by_cases hset : a = b
    · by_cases hc : first = c
      · simp [hset, hc]
      · simp [hset, hc, Ne.symm hc]
    · simp [hset]

/-- Each set holds the capabilities that are declared for it, and no other ones. -/
theorem has_conformingCapabilities (declared : CapabilityNames) (set : CapabilitySet)
    (c : Capability) :
    (conformingCapabilities declared).has set c = (declared.inSet set).contains c.name := by
  have hnames (names : List String) :
      c ∈ names.filterMap Capability.ofName? ↔ c.name ∈ names := by
    simp [List.mem_filterMap, Capability.ofName?_eq_some_iff]
  -- The five sets are filled one after another; filling one leaves the other four alone.
  unfold conformingCapabilities
  simp only [CapabilitySet.all, List.foldl_cons, List.foldl_nil, has_foldl_set, hnames,
    HeldCapabilities.has_empty, List.contains_eq_mem]
  cases set <;> simp

/-! ## Files -/

/-- A declared device node is there as it is declared. -/
theorem answer_stat_of_declared
    (hdistinct : (d.declaredDevices.map fun node => Path.keyOf node.path).Nodup) {node : Device}
    (hnode : node ∈ d.declaredDevices) :
    (conforming d).answer (.stat node.path) = .ok (conformingDevice node) := by
  have hfind : Entries.find? Path.key (conforming d).files (Path.keyOf node.path) =
      some (conformingDevice node) := by
    rw [conforming_eq]
    exact Entries.find?_foldl_insert_of_mem Path.key (defaultFiles d.terminal) hdistinct hnode
  rw [answer_conforming]
  simp only [lookUp, hfind]
  rfl

/-- A device node that is declared as a block or character device is one. -/
private theorem isDevice_conformingDevice {node : Device} (hpipe : node.type ≠ "p") :
    (conformingDevice node).kind.isDevice = true := by
  show (DeviceKind.ofMode (_ ||| _)).isDevice = true
  rw [DeviceKind.ofMode_typed, if_neg hpipe]
  split <;> decide

/-- Without declared device nodes the default ones are devices. -/
private theorem find?_defaultFiles : ∀ terminal, ∀ path ∈ Layout.devicesFor terminal,
    ((Entries.find? Path.key (defaultFiles terminal) (Path.keyOf path)).any (·.kind.isDevice)) =
      true := by
  decide +kernel

/-- A default device node is there and a device, unless a pipe is declared in its place. -/
theorem answer_stat_of_default {path : String} (hpath : path ∈ Layout.devicesFor d.terminal)
    (hkept : ∀ node ∈ d.declaredDevices, Path.keyOf node.path = Path.keyOf path →
      node.type ≠ "p") :
    ∃ stat, (conforming d).answer (.stat path) = .ok stat ∧ stat.kind.isDevice = true := by
  have hfiles : ∃ stat, Entries.find? Path.key (conforming d).files (Path.keyOf path) = some stat ∧
      stat.kind.isDevice = true := by
    rw [conforming_eq]
    rcases Entries.find?_foldl_insert Path.key (fun node : Device => Text.encode node.path)
        conformingDevice d.declaredDevices (defaultFiles d.terminal) (Path.keyOf path) with
      ⟨hfind, -⟩ | ⟨node, hnode, hkey, hfind⟩
    · -- No declared node takes the place of the default one.
      have hdefault := find?_defaultFiles d.terminal path hpath
      rw [← hfind, Option.any_eq_true] at hdefault
      exact hdefault
    · exact ⟨_, hfind, isDevice_conformingDevice (hkept node hnode hkey)⟩
  obtain ⟨stat, hfind, hdevice⟩ := hfiles
  refine ⟨stat, ?_, hdevice⟩
  rw [answer_conforming]
  simp only [lookUp, hfind]
  rfl

end Replica

end ContainerAudit
