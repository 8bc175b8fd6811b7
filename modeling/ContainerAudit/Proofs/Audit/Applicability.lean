import ContainerAudit.Audit
import ContainerAudit.Proofs.Check.Applicability
import ContainerAudit.Proofs.Check.MountOrder
import Mathlib.Data.List.Forall2

/-!
# What is skipped

A skipped check does not count against an audit, so a check that ran must never be reported as
skipped.  The platform alone decides what is skipped, and a check that ran passes or fails with
everything that it found.

## Key results

- `Check.outcome_of_mem_registry`: the outcome of one check, from its platforms and how it ends
- `Audit.runAll_skip_iff`: the results of an audit, check by check
-/

namespace ContainerAudit

namespace Check

/-- Findings that make sense are not judged to be a skip. -/
private theorem judge_of_all_isSensible {fs : Findings} (hne : fs ≠ [])
    (h : fs.All Finding.IsSensible) : judge (.error fs) = .fail fs := by
  obtain ⟨f, rest, rfl⟩ := List.exists_cons_of_ne_nil hne
  have hf : f.isUnsupported = false := h f List.mem_cons_self
  have hall : Findings.isUnsupported (f :: rest) = false := by simp [Findings.isUnsupported, hf]
  rw [judge, hall]
  rfl

/-- The platform decides whether a check is skipped; one that is not passes or fails as it ends. -/
theorem outcome_of_mem_registry (d : Document) (s : System) {c : Check} (hc : c ∈ registry) :
    c.outcome d s =
      if c.applies (d.intendedPlatform s.host) then
        match c.run d s with
        | .ok () => .pass
        | .error findings => .fail findings
      else .skip s!"not applicable to {(d.intendedPlatform s.host).name}" := by
  unfold outcome
  dsimp only
  split
  · rename_i happlies
    cases hrun : c.run d s with
    | ok _ => rfl
    | error findings =>
      -- A check that applies is judged unsupported only if it fails without a finding or with
      -- unsupported ones alone, and does neither.
      have hne : findings ≠ [] := fun hnil => run_ne_error_nil d s hc (hnil ▸ hrun)
      exact judge_of_all_isSensible hne (isSensible_of_applies d s hc happlies hrun)
  · rfl

/-- Every check makes sense on Linux. -/
private theorem applies_linux : ∀ c ∈ registry, c.applies .linux = true := by
  simp [registry, everywhere, Platform.stacksMounts, Platform.isLinux]

end Check

/-- There is one result for each check in the order of the registry.  A result is a skip exactly if
    the check does not apply to the platform of the document, and a pass exactly if it does and
    holds.  A failure carries what the check reported, which is something and never that the check
    makes no sense.  On Linux nothing is skipped.  No check, whether it applies or not, ever ends
    with no findings to report. -/
theorem Audit.runAll_skip_iff (d : Document) (s : System) :
    List.Forall₂
        (fun (c : Check) (v : Verdict) =>
          (v.description = c.description ∧ v.level = c.level) ∧
            ((∃ reason, v.outcome = .skip reason) ↔
              c.applies (d.intendedPlatform s.host) = false) ∧
            (v.outcome = .pass ↔
              c.applies (d.intendedPlatform s.host) = true ∧ c.run d s = .ok ()) ∧
            ∀ findings, v.outcome = .fail findings →
              c.run d s = .error findings ∧ findings ≠ [] ∧
                ∀ f ∈ findings, f.isUnsupported = false)
        Check.registry (runAll d s) ∧
      (d.intendedPlatform s.host = .linux →
        ∀ v ∈ runAll d s, ∀ reason, v.outcome ≠ .skip reason) ∧
      ∀ c ∈ Check.registry, c.run d s ≠ .error [] := by
  refine ⟨?_, fun hlinux v hv reason => ?_, fun c hc => Check.run_ne_error_nil d s hc⟩
  · simp only [runAll, run, List.forall₂_map_right_iff]
    refine List.forall₂_same.mpr fun c hc => ⟨⟨rfl, rfl⟩, ?_⟩
    have houtcome : (c.result d s).outcome = _ := Check.outcome_of_mem_registry d s hc
    rw [houtcome]
    cases happlies : c.applies (d.intendedPlatform s.host) with
    | false => simp
    | true =>
      cases hrun : c.run d s with
      | ok _ => simp
      | error findings =>
        -- The check failed, and with what it reported.
        have hne : findings ≠ [] := fun hnil => Check.run_ne_error_nil d s hc (hnil ▸ hrun)
        have hsensible := Check.isSensible_of_applies d s hc happlies hrun
        refine ⟨by simp, by simp, fun failed hfailed => ?_⟩
        obtain rfl : findings = failed := by simpa using hfailed
        exact ⟨rfl, hne, hsensible⟩
  · obtain ⟨c, hc, rfl⟩ := List.mem_map.mp hv
    show c.outcome d s ≠ _
    rw [Check.outcome_of_mem_registry d s hc, hlinux, if_pos (Check.applies_linux c hc)]
    cases c.run d s <;> simp

/-- Nothing is skipped of a document of which the order of mounts is not kept. -/
theorem Audit.runAll_coveredMounts_ne_skip :
    let s : System := { mounts := Check.coveredTable : Replica }.system .linux
    Check.coveredMounts.intendedPlatform s.host = .linux ∧
      ∀ v ∈ runAll Check.coveredMounts s, ∀ reason, v.outcome ≠ .skip reason :=
  ⟨rfl, (Audit.runAll_skip_iff Check.coveredMounts _).2.1 rfl⟩

end ContainerAudit
