import ContainerAudit.Check.Registry
import ContainerAudit.Proofs.Check.Collecting

/-!
# Checks that apply make sense

A check can find that it makes no sense on a platform, and such a finding is no failure.  Only the
order of mounts is ever judged so, by a platform test of its own beside that of the registry.  Here
no check that applies to the platform of a document finds it, on whatever path it ends: early, for
want of an answer, or with all that it collected.  And on each of these paths a check that does not
hold says why.

## Key results

- `reports_mountOrder`: the two platform tests agree
- `reports_of_mem_registry`: what the checks report, path by path
- `isSensible_of_applies`: a check that applies never finds that it makes no sense
- `run_ne_error_nil`: no check ends with an empty list of findings, whether it applies or not
-/

namespace ContainerAudit

namespace Finding

/-- A finding does not say that the check makes no sense. -/
def IsSensible (f : Finding) : Prop := f.isUnsupported = false

@[simp] theorem isSensible_mismatch (what expected actual : String) :
    (mismatch what expected actual).IsSensible := rfl

@[simp] theorem isSensible_violation (text : String) : (violation text).IsSensible := rfl

@[simp] theorem isSensible_unknownLimit (name : String) : (unknownLimit name).IsSensible := rfl

@[simp] theorem isSensible_unanswered (what : String) (cause : IoError) :
    (unanswered what cause).IsSensible := rfl

end Finding

namespace Check

open Findings
open Finding (IsSensible)

/-- A check of which all findings are sensible is never turned down, whatever the reason. -/
private theorem Reports.of_isSensible {c : Conclusion} {reason : Prop}
    (h : Reports IsSensible c) : Reports (fun f => f.isUnsupported = true → reason) c := by
  intro fs hfs
  obtain ⟨hne, hall⟩ := h fs hfs
  refine ⟨hne, fun f hf hunsupported => ?_⟩
  have hsensible : f.isUnsupported = false := hall f hf
  simp [hsensible] at hunsupported

variable (d : Document) (s : System)

/-! ## Checks without questions -/

/-- The root filesystem: at most one violation. -/
private theorem reports_rootFilesystem : Reports IsSensible (rootFilesystem d s) := by
  unfold rootFilesystem
  split <;> simp

/-- The readonly paths: violations, one for each path that can be written to. -/
private theorem reports_readonlyPaths : Reports IsSensible (readonlyPaths d s) := by
  simp [readonlyPaths]

/-- The user id: one comparison. -/
private theorem reports_uid : Reports IsSensible (uid d s) := by
  unfold uid
  split <;> simp

/-- The group id: one comparison. -/
private theorem reports_gid : Reports IsSensible (gid d s) := by
  unfold gid
  split <;> simp

/-- The environment: one comparison for each variable. -/
private theorem reports_environment : Reports IsSensible (environment d s) := by
  simp [environment_eq, variableFindings]

/-! ## Checks with one question -/

/-- A check that asks one question is not kept from making sense by the lack of an answer. -/
private theorem reports_query {q : Question} {what : String} {f : q.Answer → Conclusion}
    (h : ∀ a, Reports IsSensible (f a)) : Reports IsSensible (liftM (s.query q what) >>= f) :=
  Reports.query (fun _ _ => rfl) fun a _ => h a

/-- The groups: violations, or no answer. -/
private theorem reports_groups : Reports IsSensible (groups d s) := by
  unfold groups
  split
  · split
    · exact reports_ok
    · exact reports_query s fun live => by simp
  · exact reports_ok

/-- The id mappings: the number of them, or what is missing, or no answer. -/
private theorem reports_mappings (kind : IdKind) (declared : List IdMapping) :
    Reports IsSensible (mappings kind declared s) := by
  unfold mappings
  split
  · exact reports_ok
  · refine reports_query s fun live => ?_
    split <;> simp [mappingNotFound]

/-- The working directory: one comparison, or no answer. -/
private theorem reports_workingDirectory : Reports IsSensible (workingDirectory d s) := by
  unfold workingDirectory
  split
  · split
    · exact reports_ok
    · exact reports_query s fun actual => by simp
  · exact reports_ok

/-- The arguments: their number or each of them, or no answer. -/
private theorem reports_arguments : Reports IsSensible (arguments d s) := by
  unfold arguments
  split
  · refine reports_query s fun actual => ?_
    split <;> simp
  · exact reports_ok

/-- The hostname: one comparison, or no answer. -/
private theorem reports_hostname : Reports IsSensible (hostname d s) := by
  unfold hostname
  dsimp only
  split
  · exact reports_ok
  · exact reports_query s fun actual => by simp

/-- The flag: one comparison, or no answer. -/
private theorem reports_noNewPrivileges : Reports IsSensible (noNewPrivileges d s) := by
  unfold noNewPrivileges
  split
  · exact reports_query s fun actual => by simp
  · exact reports_ok

/-- The capabilities: violations, or no answer. -/
private theorem reports_capabilities : Reports IsSensible (capabilities d s) := by
  unfold capabilities
  split
  · exact reports_query s fun live => by simp [capabilityFindings]
  · exact reports_ok

/-- The score: one comparison, or no answer. -/
private theorem reports_oomScoreAdj : Reports IsSensible (oomScoreAdj d s) := by
  unfold oomScoreAdj
  split
  · exact reports_query s fun actual => by simp
  · exact reports_ok

/-- The declared mounts: what is found about each of them, or no answer. -/
private theorem reports_mountsExist : Reports IsSensible (mountsExist d s) :=
  reports_query s fun live => by simp [mountFindings]

/-- The default file systems: what is found about each of them, or no answer. -/
private theorem reports_defaultFilesystems : Reports IsSensible (defaultFilesystems d s) := by
  refine reports_query s fun live => reports_conclude.mpr (all_flatMap.mpr fun entry _ => ?_)
  obtain ⟨mountpoint, fstype⟩ := entry
  show (filesystemFindings live mountpoint fstype).All IsSensible
  unfold filesystemFindings
  split <;> simp

/-- Only where mounts do not stack is the check of their order turned down. -/
theorem reports_mountOrder :
    Reports (fun f => f.isUnsupported = true → (d.intendedPlatform s.host).stacksMounts = false)
      (mountOrder d s) := by
  unfold mountOrder
  dsimp only
  cases (d.intendedPlatform s.host).stacksMounts with
  | false => exact reports_error.mpr ⟨List.cons_ne_nil _ _, all_singleton.mpr fun _ => rfl⟩
  | true =>
    -- From here on the check is like any other, so nothing it finds is turned down.
    refine Reports.of_isSensible ?_
    cases nesting? d with
    | none => exact reports_ok
    | some n => exact reports_query s fun live => by simp [nestingFindings]

/-! ## Checks that look at several items -/

/-- The limits: an unknown one, or both of its values, or no answer. -/
private theorem reports_rlimits : Reports IsSensible (rlimits d s) := by
  refine rlimits_eq s d ▸ reports_conclude.mpr (all_settle_collect fun l _ => ?_)
  unfold limitFindings
  split
  · exact all_settle_query (fun _ _ => rfl) fun actual _ => by simp
  · simp

/-- The kernel parameters: one comparison each, or no answer. -/
private theorem reports_sysctl : Reports IsSensible (sysctl d s) := by
  refine sysctl_eq s d ▸ reports_conclude.mpr (all_settle_collect fun entry _ => ?_)
  exact all_settle_query (fun _ _ => rfl) fun actual _ => by simp

/-- The masked paths: violations, or no answer. -/
private theorem reports_maskedPaths : Reports IsSensible (maskedPaths d s) := by
  refine maskedPaths_eq s d ▸ reports_conclude.mpr (all_settle_collect fun path _ => ?_)
  exact all_settle_query (fun _ _ => rfl) fun readable _ => by simp

/-- The default devices: violations, or no answer. -/
private theorem reports_defaultDevices : Reports IsSensible (defaultDevices d s) := by
  refine defaultDevices_eq s d ▸ reports_conclude.mpr (all_settle_collect fun path _ => ?_)
  refine all_settle_statIfThere s (fun _ _ => rfl) fun stat => ?_
  cases stat <;> simp [nodeNotFound]

/-- What is found about a node that is there: another type, or other attributes. -/
private theorem all_nodeFindings (node : Device) (stat : FileStat) :
    (nodeFindings node stat).All IsSensible := by
  unfold nodeFindings numberFindings attributeFindings
  split
  · -- Every comparison is a mismatch if anything, and an attribute may not be declared.
    split <;> cases node.fileMode <;> cases node.uid <;> cases node.gid <;> simp
  · simp

/-- The declared devices: what is found about each node, or that it is not there, or no answer. -/
private theorem reports_devices : Reports IsSensible (devices d s) := by
  refine devices_eq s d ▸ reports_conclude.mpr (all_settle_collect fun node _ => ?_)
  refine all_settle_statIfThere s (fun _ _ => rfl) fun stat => ?_
  cases stat with
  | some stat => exact all_nodeFindings node stat
  | none => simp [nodeNotFound]

/-- Of the errors that a link can meet, two are findings and the others stop the check. -/
private theorem all_symlinkFindings (link target : String) :
    (settle (symlinkFindings s link target)).All IsSensible := by
  unfold symlinkFindings
  split
  · simp -- there is a link
  · split
    · simp -- there is no file
    · split <;> simp -- the file is no link, or the error is another one

/-- The default links: what is found about each of them. -/
private theorem reports_defaultSymlinks : Reports IsSensible (defaultSymlinks d s) :=
  defaultSymlinks_eq s d ▸ reports_conclude.mpr
    (all_settle_collect fun (link, target) _ => all_symlinkFindings s link target)

/-! ## All checks -/

/-- A check that does not hold finds something, and only one that does not apply to the platform of
    a document finds that it makes no sense. -/
theorem reports_of_mem_registry :
    ∀ c ∈ registry,
      Reports (fun f => f.isUnsupported = true → c.applies (d.intendedPlatform s.host) = false)
        (c.run d s) := by
  simp only [registry, List.forall_mem_cons]
  exact ⟨(reports_rootFilesystem d s).of_isSensible, (reports_uid d s).of_isSensible,
    (reports_gid d s).of_isSensible, (reports_groups d s).of_isSensible,
    (reports_workingDirectory d s).of_isSensible, (reports_arguments d s).of_isSensible,
    (reports_environment d s).of_isSensible, (reports_noNewPrivileges d s).of_isSensible,
    (reports_capabilities d s).of_isSensible, (reports_hostname d s).of_isSensible,
    (reports_rlimits d s).of_isSensible, (reports_mountsExist d s).of_isSensible,
    reports_mountOrder d s, (reports_defaultFilesystems d s).of_isSensible,
    (reports_defaultDevices d s).of_isSensible, (reports_defaultSymlinks d s).of_isSensible,
    (reports_devices d s).of_isSensible, (reports_sysctl d s).of_isSensible,
    (reports_maskedPaths d s).of_isSensible, (reports_readonlyPaths d s).of_isSensible,
    (reports_oomScoreAdj d s).of_isSensible, (reports_mappings s .uid _).of_isSensible,
    (reports_mappings s .gid _).of_isSensible, by simp⟩

/-- No check ends without a reason, whether it applies or not. -/
theorem run_ne_error_nil {c : Check} (hc : c ∈ registry) : c.run d s ≠ .error [] := by
  intro h
  exact (reports_of_mem_registry d s c hc [] h).1 rfl

/-- What a check that applies finds makes sense. -/
theorem isSensible_of_applies {c : Check} (hc : c ∈ registry)
    (happlies : c.applies (d.intendedPlatform s.host) = true) {fs : Findings}
    (h : c.run d s = .error fs) : fs.All IsSensible := by
  intro f hf
  have hturned : f.isUnsupported = true → c.applies (d.intendedPlatform s.host) = false :=
    (reports_of_mem_registry d s c hc fs h).2 f hf
  -- Were it turned down, the check would not apply.
  cases hunsupported : f.isUnsupported with
  | false => exact hunsupported
  | true => exact absurd (hturned hunsupported) (by simp [happlies])

end Check

end ContainerAudit
