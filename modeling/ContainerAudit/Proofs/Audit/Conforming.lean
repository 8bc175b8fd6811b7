import ContainerAudit.Audit
import ContainerAudit.Proofs.Check.Conforming

/-!
# An audit of the conforming replica

The replica of a faithful runtime passes: where a document can be satisfied at all, each check
passes on `Replica.conforming` or does not apply to the platform.

## Key results

- `Check.outcome_conforming`: the outcome of one check
- `Audit.runAll_conforming`: an audit without failures
-/

namespace ContainerAudit

/-- A check that applies passes on the conforming replica. -/
theorem Check.outcome_conforming {d : Document} (host : Platform) (h : d.Satisfiable) {c : Check}
    (hc : c ∈ registry) :
    c.outcome d ((Replica.conforming d).system host) =
      if c.applies (d.intendedPlatform host) then .pass
      else .skip s!"not applicable to {(d.intendedPlatform host).name}" := by
  have hhost : ((Replica.conforming d).system host).host = host := rfl
  unfold outcome
  rw [hhost]
  dsimp only
  split
  · rename_i happlies
    rw [run_conforming host h c hc happlies]
    rfl
  · rfl

/-- No check fails on the conforming replica of a document that can be satisfied, on any host. -/
theorem Audit.runAll_conforming (d : Document) (host : Platform) (h : d.Satisfiable) :
    ∀ v ∈ runAll d ((Replica.conforming d).system host), v.outcome.isFail = false := by
  intro v hv
  obtain ⟨c, hc, rfl⟩ := List.mem_map.mp hv
  show (c.outcome d ((Replica.conforming d).system host)).isFail = false
  rw [Check.outcome_conforming host h hc]
  split <;> rfl

/-- A document with something of everything: a mount below another one, a default device node
    that is declared again, and numbers that need all bits of a device number. -/
def fullDocument : Document where
  hostname := some "box"
  root := some { path := "rootfs" }
  process := some
    { terminal := true
      user := { uid := 1000, gid := 100, additionalGids := [5, 7] }
      args := ["sh", "-c", "true"]
      env := ["PATH=/bin", "TERM=xterm", "EMPTY"]
      cwd := "/work"
      capabilities := some { bounding := ["CAP_KILL", "CAP_UNKNOWN"], ambient := ["CAP_KILL"] }
      rlimits := [⟨"RLIMIT_CORE", 2, 1⟩, ⟨"RLIMIT_NOFILE", 4096, 1024⟩]
      noNewPrivileges := true }
  mounts :=
    [{ destination := "/proc/", fstype := "proc", source := "proc" },
      { destination := "/data", fstype := "tmpfs", source := "tmpfs" },
      { destination := "/data/./cache//", fstype := "bind", source := "/srv/../cache" }]
  linux := some
    { devices :=
        [{ path := "/dev/null", type := "u", major := 1, minor := 3, fileMode := some 0o600 },
          { path := "/dev/disk", type := "b", major := 0xfff, minor := 0xfffff },
          { path := "/dev/queue", type := "p", major := -1, uid := some 3 }]
      sysctl := .ofList [("net.core.somaxconn", "256"), ("kernel.msgmax", "65536")]
      maskedPaths := ["/proc/kcore"]
      readonlyPaths := ["/proc/sys"]
      uidMappings := [⟨0, 1000, 10⟩]
      resources := some { oomScoreAdj := some 100 } }

/-- A document that declares something of each kind passes on its own replica. -/
theorem runAll_fullDocument :
    fullDocument.Satisfiable ∧
      ∀ v ∈ Audit.runAll fullDocument ((Replica.conforming fullDocument).system .linux),
        v.outcome.isFail = false := by
  have h : fullDocument.Satisfiable :=
    { mounts_stack := by decide +kernel
      filesystems_kept := by decide +kernel
      env_distinct := by decide +kernel
      limits_known := by decide +kernel
      limits_distinct := by decide +kernel
      devices_distinct := by decide +kernel
      devices_typed := by decide +kernel
      devices_numbered := by decide +kernel
      devices_kept := by decide +kernel
      root_protected := by decide +kernel }
  exact ⟨h, Audit.runAll_conforming fullDocument .linux h⟩

end ContainerAudit
