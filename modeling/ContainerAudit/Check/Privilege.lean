import ContainerAudit.Check.Finding

/-!
# What the process may do

The capabilities of the process and whether it can gain privileges.
-/

namespace ContainerAudit.Check

/-- The flag that keeps a process from gaining privileges. -/
def noNewPrivileges (d : Document) (s : System) : Conclusion :=
  match d.process with
  | some p => do
    let actual ← s.query .noNewPrivileges "no_new_privs flag"
    expect "NoNewPrivileges" toString p.noNewPrivileges actual
  | none => .ok ()

/-- Compares one capability in one set with the declared names of the set. -/
def capabilityFindings (declared : List String) (live : HeldCapabilities)
    (set : CapabilitySet) (c : Capability) : Findings :=
  let expected := declared.contains c.name
  .ensure (live.has set c = expected)
    (.violation
      (if expected then s!"expected capability {c.name} in {set.name} set but it is missing"
      else s!"unexpected capability {c.name} present in {set.name} set"))

/-- Every capability that the kernel knows must be in a set exactly if it is declared there.  A
    process without declared capabilities has none. -/
def capabilities (d : Document) (s : System) : Conclusion :=
  match d.process with
  | some p => do
    let declared := p.capabilities.getD {}
    let live ← s.query .capabilities "capability sets"
    conclude (CapabilitySet.all.flatMap fun set =>
      (Capability.upTo live.lastCap.toNat).flatMap
        (capabilityFindings (declared.inSet set) live set))
  | none => .ok ()

end ContainerAudit.Check
