import ContainerAudit.Proofs.Audit.Applicability
import ContainerAudit.Proofs.Check.Rearranged

/-!
# An audit of rearranged documents

Where two documents differ in the order of declarations alone, an audit of each gives the same
results, but for the order of findings, and for which of several failing reads a failure is about.

## Key results

- `Check.outcome_of_alike`: checks that end alike are judged alike
- `Audit.runAll_rearranged`: the two audits, result by result
-/

namespace ContainerAudit

/-- Both checks passed, both were skipped for the same reason, or both failed alike. -/
inductive Outcome.Alike (d : Document) (s : System) : Outcome → Outcome → Prop where
  | pass : Alike d s .pass .pass
  | skip (reason : String) : Alike d s (.skip reason) (.skip reason)
  | fail {fs fs' : Findings} (h : Findings.Alike d s fs fs') : Alike d s (.fail fs) (.fail fs')

namespace Check

/-- Checks that end alike are judged alike. -/
theorem outcome_of_alike {d d' : Document} (h : d.Rearranged d') (s : System) {c : Check}
    (hc : c ∈ registry) : (c.outcome d s).Alike d s (c.outcome d' s) := by
  have halike := steady_of_mem_registry c hc d d' h s
  -- The platform is the same, so a check applies to both documents or to neither.
  rw [outcome_of_mem_registry d s hc, outcome_of_mem_registry d' s hc, h.intendedPlatform]
  split
  · generalize c.run d s = before at halike
    generalize c.run d' s = after at halike
    cases halike with
    | holds => exact .pass
    | fails h => exact .fail h
  · exact .skip _

end Check

/-- The audits of two documents that differ in order alone agree, result by result, on what passed,
    what was skipped and what failed.  Two failures carry the same findings in some order, unless
    reads of the system failed and each carries one finding about such a read. -/
theorem Audit.runAll_rearranged (d d' : Document) (s : System) (h : d.Rearranged d') :
    List.Forall₂
      (fun v v' : Verdict =>
        v'.description = v.description ∧ v'.level = v.level ∧ v.outcome.Alike d s v'.outcome)
      (runAll d s) (runAll d' s) := by
  simp only [runAll, run, List.forall₂_map_left_iff, List.forall₂_map_right_iff]
  exact List.forall₂_same.mpr fun c hc => ⟨rfl, rfl, Check.outcome_of_alike h s hc⟩

/-- Two documents of which the limits cannot be read on the system: each audit reports another one
    of them. -/
theorem Audit.runAll_swapped :
    let limits : List DeclaredLimit := [⟨"RLIMIT_CORE", 2, 1⟩, ⟨"RLIMIT_NOFILE", 4096, 1024⟩]
    let nodes : List Device :=
      [{ path := "/dev/a", type := "c" }, { path := "/dev/b", type := "b" }]
    let names : CapabilityNames := { bounding := ["CAP_KILL", "CAP_CHOWN"] }
    let names' : CapabilityNames := { bounding := ["CAP_CHOWN", "CAP_KILL"] }
    let d : Document :=
      { process := some { env := ["A=1", "B=2"], capabilities := some names, rlimits := limits }
        linux := some { devices := nodes, uidMappings := [⟨0, 0, 1⟩, ⟨1000, 1, 10⟩] } }
    let d' : Document :=
      { process := some
          { env := ["B=2", "A=1"], capabilities := some names', rlimits := limits.reverse }
        linux := some { devices := nodes.reverse, uidMappings := [⟨1000, 1, 10⟩, ⟨0, 0, 1⟩] } }
    let s : System := { failing := [.limits] : Replica }.system .linux
    d.Rearranged d' ∧
      List.Forall₂
        (fun v v' : Verdict =>
          v'.description = v.description ∧ v'.level = v.level ∧ v.outcome.Alike d s v'.outcome)
        (runAll d s) (runAll d' s) := by
  intro limits nodes names names' d d' s
  have hnames : names.Rearranged names' := fun set => by cases set <;> decide
  -- Five of the lists are swapped, and the others are left as they are.
  have h : d.Rearranged d' :=
    .mk (.some (.mk (.refl _) (.swap _ _ _) (.some hnames) (.swap _ _ _)))
      (.some (.mk (.swap _ _ _) (.refl _) (.refl _) (.swap _ _ _) (.refl _)))
  exact ⟨h, Audit.runAll_rearranged d d' s h⟩

end ContainerAudit
