import ContainerAudit.Proofs.Document.Declared

/-!
# Documents that differ in order alone

A document lists what it declares in some order, and for many lists the order means nothing.
`Document.Rearranged` relates two documents that declare the same in those lists, each in an order
of its own, and agree in everything else.

## Key results

- `Rearranged.process_cases`: the process blocks of two such documents
- `Rearranged.declaredLimits`, `Rearranged.declaredDevices`, …: the lists of the two documents
-/

namespace ContainerAudit

/-- The same names in each set. -/
def CapabilityNames.Rearranged (c c' : CapabilityNames) : Prop :=
  ∀ set, (c.inSet set).Perm (c'.inSet set)

/-- The same process, but for the order of groups, variables, capabilities and limits. -/
inductive Process.Rearranged : Process → Process → Prop where
  | mk {p : Process} {groups : List UInt32} {env : List String}
    {capabilities : Option CapabilityNames} {rlimits : List DeclaredLimit}
    (hgroups : p.user.additionalGids.Perm groups) (henv : p.env.Perm env)
    (hcapabilities : Option.Rel CapabilityNames.Rearranged p.capabilities capabilities)
    (hrlimits : p.rlimits.Perm rlimits) :
    Rearranged p
      { p with user := { p.user with additionalGids := groups }, env, capabilities, rlimits }

/-- The same block, but for the order of device nodes, protected paths and id mappings. -/
inductive LinuxBlock.Rearranged : LinuxBlock → LinuxBlock → Prop where
  | mk {l : LinuxBlock} {devices : List Device} {maskedPaths readonlyPaths : List String}
    {uidMappings gidMappings : List IdMapping} (hdevices : l.devices.Perm devices)
    (hmasked : l.maskedPaths.Perm maskedPaths) (hreadonly : l.readonlyPaths.Perm readonlyPaths)
    (huid : l.uidMappings.Perm uidMappings) (hgid : l.gidMappings.Perm gidMappings) :
    Rearranged l { l with devices, maskedPaths, readonlyPaths, uidMappings, gidMappings }

namespace Document

/-- The same document, but for the order of these lists. -/
inductive Rearranged : Document → Document → Prop where
  | mk {d : Document} {process : Option Process} {linux : Option LinuxBlock}
    (hprocess : Option.Rel Process.Rearranged d.process process)
    (hlinux : Option.Rel LinuxBlock.Rearranged d.linux linux) :
    Rearranged d { d with process, linux }

namespace Rearranged

variable {d d' : Document}

/-- Both documents have no process, or both have one and these are rearranged. -/
theorem process_cases (h : d.Rearranged d') :
    (d.process = none ∧ d'.process = none) ∨
      ∃ p p', d.process = some p ∧ d'.process = some p' ∧ p.Rearranged p' := by
  obtain ⟨hprocess, -⟩ := h
  generalize d.process = process at hprocess
  cases hprocess with
  | none => exact .inl ⟨rfl, rfl⟩
  | some hp => exact .inr ⟨_, _, rfl, rfl, hp⟩

/-- Likewise for the block for Linux. -/
private theorem linux_cases (h : d.Rearranged d') :
    (d.linux = none ∧ d'.linux = none) ∨
      ∃ l l', d.linux = some l ∧ d'.linux = some l' ∧ l.Rearranged l' := by
  obtain ⟨-, hlinux⟩ := h
  generalize d.linux = linux at hlinux
  cases hlinux with
  | none => exact .inl ⟨rfl, rfl⟩
  | some hl => exact .inr ⟨_, _, rfl, rfl, hl⟩

/-! ## What stays -/

/-- Both are for the same platform. -/
theorem intendedPlatform (h : d.Rearranged d') : d'.intendedPlatform = d.intendedPlatform := by
  obtain ⟨-, -⟩ := h
  rfl

/-- Both have the same kind of root. -/
theorem readonlyRoot (h : d.Rearranged d') : d'.readonlyRoot = d.readonlyRoot := by
  obtain ⟨-, -⟩ := h
  rfl

/-- Both declare the same hostname. -/
theorem hostname (h : d.Rearranged d') : d'.hostname = d.hostname := by
  obtain ⟨-, -⟩ := h
  rfl

/-- Both declare the same mounts in the same order. -/
theorem mounts (h : d.Rearranged d') : d'.mounts = d.mounts := by
  obtain ⟨-, -⟩ := h
  rfl

/-- Both have a terminal or neither has. -/
theorem terminal (h : d.Rearranged d') : d'.terminal = d.terminal := by
  rcases h.process_cases with ⟨hp, hp'⟩ | ⟨p, p', hp, hp', ⟨-⟩⟩ <;>
    simp [Document.terminal, hp, hp']

/-- Both declare the same kernel parameters. -/
theorem declaredSettings (h : d.Rearranged d') : d'.declaredSettings = d.declaredSettings := by
  rcases h.linux_cases with ⟨hl, hl'⟩ | ⟨l, l', hl, hl', ⟨-⟩⟩ <;>
    simp [Document.declaredSettings, hl, hl']

/-- Both declare the same score, in whichever block it stands. -/
theorem oomScoreAdj (h : d.Rearranged d') : d'.oomScoreAdj = d.oomScoreAdj := by
  rcases h.process_cases with ⟨hp, hp'⟩ | ⟨p, p', hp, hp', ⟨-⟩⟩ <;>
    rcases h.linux_cases with ⟨hl, hl'⟩ | ⟨l, l', hl, hl', ⟨-⟩⟩ <;>
      simp [Document.oomScoreAdj, hp, hp', hl, hl']

/-! ## What is rearranged -/

/-- A list of the process block is rearranged, if it is so in rearranged blocks. -/
private theorem process_perm {α : Type} (h : d.Rearranged d') (list : Process → List α)
    (hlist : ∀ {p p'}, p.Rearranged p' → (list p).Perm (list p')) :
    ((d.process.map list).getD []).Perm ((d'.process.map list).getD []) := by
  rcases h.process_cases with ⟨hp, hp'⟩ | ⟨p, p', hp, hp', hr⟩
  · rw [hp, hp']
  · rw [hp, hp']
    exact hlist hr

/-- Likewise for a list of the block for Linux. -/
theorem linux_perm {α : Type} (h : d.Rearranged d') (list : LinuxBlock → List α)
    (hlist : ∀ {l l'}, l.Rearranged l' → (list l).Perm (list l')) :
    ((d.linux.map list).getD []).Perm ((d'.linux.map list).getD []) := by
  rcases h.linux_cases with ⟨hl, hl'⟩ | ⟨l, l', hl, hl', hr⟩
  · rw [hl, hl']
  · rw [hl, hl']
    exact hlist hr

theorem declaredEnv (h : d.Rearranged d') : d.declaredEnv.Perm d'.declaredEnv :=
  h.process_perm (·.env) fun ⟨_, henv, _, _⟩ => henv

theorem declaredLimits (h : d.Rearranged d') : d.declaredLimits.Perm d'.declaredLimits :=
  h.process_perm (·.rlimits) fun ⟨_, _, _, hrlimits⟩ => hrlimits

theorem declaredDevices (h : d.Rearranged d') : d.declaredDevices.Perm d'.declaredDevices :=
  h.linux_perm (·.devices) fun ⟨hdevices, _, _, _, _⟩ => hdevices

theorem declaredMasked (h : d.Rearranged d') : d.declaredMasked.Perm d'.declaredMasked :=
  h.linux_perm (·.maskedPaths) fun ⟨_, hmasked, _, _, _⟩ => hmasked

end Rearranged

end Document

end ContainerAudit
