import ContainerAudit.Check.Questions
import ContainerAudit.Check.Registry
import ContainerAudit.Proofs.Check.Collecting
import ContainerAudit.Proofs.Document.Rearranged

/-!
# What a check makes of the order of declarations

Two documents that differ in order alone (`Document.Rearranged`) are checked against one system.
Each check ends alike for both: it holds, or it reports the same findings, perhaps in another order
(`Conclusion.Alike`).  Only which of several failing reads ends a check depends on the order: then
each document leaves one finding about a read that failed (`Findings.Alike`).

## Key results

- `alike_collect`: a check that walks through a list, whatever the order of the list
- `steady_of_mem_registry`: all checks
-/

namespace ContainerAudit

/-- The errors that the checks take for an answer: a file that is not there, a file that is no
    link, and any refusal of a write probe. -/
def Question.expects : Question → IoErrorKind → Prop
  | .stat _, kind => kind = .notFound
  | .linkTarget _, kind => kind = .notFound ∨ kind = .invalidInput
  | .writeProbe _, _ => True
  | _, _ => False

/-- An error keeps a check of a document from an answer. -/
def Document.Unread (d : Document) (s : System) (e : IoError) : Prop :=
  ∃ q ∈ d.questions, s.ask q = .error e ∧ ¬q.expects e.kind

/-- There is one finding, about a read that failed. -/
def Findings.Unread (d : Document) (s : System) (fs : Findings) : Prop :=
  ∃ what e, d.Unread s e ∧ fs = [.unanswered what e]

/-- The same findings in any order, or one finding each about a read that failed. -/
def Findings.Alike (d : Document) (s : System) (fs fs' : Findings) : Prop :=
  fs.Perm fs' ∨ fs.Unread d s ∧ fs'.Unread d s

/-- Both checks hold, or both report alike. -/
inductive Conclusion.Alike (d : Document) (s : System) : Conclusion → Conclusion → Prop where
  | holds : Alike d s (.ok ()) (.ok ())
  | fails {fs fs' : Findings} (h : Findings.Alike d s fs fs') : Alike d s (.error fs) (.error fs')

namespace Conclusion.Alike

variable {d : Document} {s : System}

/-- A check that ends in the same way ends alike. -/
private theorem of_eq {c c' : Conclusion} (h : c' = c) : Alike d s c c' := by
  subst h
  cases c' with
  | ok _ => exact .holds
  | error fs => exact .fails (.inl (.refl _))

/-- What is concluded from findings that are alike is alike: either nothing was found or something
    both times. -/
theorem conclude {fs fs' : Findings} (h : Findings.Alike d s fs fs') :
    Alike d s (Check.conclude fs) (Check.conclude fs') := by
  rcases h with hperm | ⟨⟨_, _, hread, rfl⟩, ⟨_, _, hread', rfl⟩⟩
  · -- A rearrangement of nothing is nothing, so the two conclusions are of one kind.
    by_cases hnil : fs = []
    · obtain rfl : fs' = [] := (hnil ▸ hperm).nil_eq.symm
      exact of_eq (by rw [hnil])
    · have hnil' : fs' ≠ [] := fun heq => hnil (heq ▸ hperm).eq_nil
      rw [Check.conclude_of_ne_nil hnil, Check.conclude_of_ne_nil hnil']
      exact .fails (.inl hperm)
  · exact .fails (.inr ⟨⟨_, _, hread, rfl⟩, ⟨_, _, hread', rfl⟩⟩)

/-- So is what is concluded from the same findings in another order. -/
private theorem of_perm {fs fs' : Findings} (h : fs.Perm fs') :
    Alike d s (Check.conclude fs) (Check.conclude fs') :=
  conclude (.inl h)

end Conclusion.Alike

namespace Check

open Findings

/-- What a check concludes depends on the order of declarations in no other way. -/
def Steady (run : Document → System → Conclusion) : Prop :=
  ∀ d d', d.Rearranged d' → ∀ s, (run d s).Alike d s (run d' s)

variable {d d' : Document} {s : System}

/-- A check that asks one question, and concludes alike about both documents from its answer. -/
private theorem alike_query {q : Question} {what : String} {f f' : q.Answer → Conclusion}
    (h : ∀ a, (f a).Alike d s (f' a)) :
    Conclusion.Alike d s (liftM (s.query q what) >>= f) (liftM (s.query q what) >>= f') := by
  cases s.query q what with
  | error e => exact .of_eq rfl
  | ok a => exact h a

/-- A check that reads the items of a list. -/
theorem alike_collect {α : Type} {r : Reading α} {check : α → Except Finding Findings}
    (hcheck : r.Describes s check) {items items' : List α} (h : items.Perm items')
    (hunread : ∀ a ∈ items, ∀ e, r.Fails s a e → d.Unread s e) :
    Findings.Alike d s (settle (collect items check)) (settle (collect items' check)) := by
  -- Both walks meet the same items, so either both are stopped or none.
  rcases r.succeeds_or_fails s items with hread | ⟨before, a, after, e, heq, hread, hfails⟩
  · have hread' : ∀ a ∈ items', r.Succeeds s a := fun a ha => hread a (h.mem_iff.mpr ha)
    rw [Reading.collect_of_succeeds hcheck hread, Reading.collect_of_succeeds hcheck hread']
    exact .inl (h.flatMap_right _)
  · have ha : a ∈ items := by simp [heq]
    rcases r.succeeds_or_fails s items' with
      hread' | ⟨before', a', after', e', heq', hread', hfails'⟩
    · exact absurd hfails (hread' a (h.mem_iff.mp ha) e)
    · -- Both are stopped, perhaps by different items: one finding is left of each.
      have ha' : a' ∈ items := h.mem_iff.mpr (by simp [heq'])
      rw [heq, heq', Reading.collect_of_fails hcheck hread hfails,
        Reading.collect_of_fails hcheck hread' hfails']
      exact .inr ⟨⟨_, _, hunread a ha e hfails, rfl⟩, ⟨_, _, hunread a' ha' e' hfails', rfl⟩⟩

/-! ## Checks that look at nothing that is rearranged -/

/-- The check of the root filesystem looks at a flag. -/
private theorem steady_rootFilesystem : Steady rootFilesystem := by
  intro d d' h s
  exact .of_eq (by rw [rootFilesystem, h.readonlyRoot, rootFilesystem])

/-- The check of the user id looks at one number. -/
private theorem steady_uid : Steady uid := by
  intro d d' h s
  rcases h.process_cases with ⟨hp, hp'⟩ | ⟨p, p', hp, hp', ⟨-⟩⟩ <;>
    exact .of_eq (by simp only [uid, hp, hp'])

/-- The check of the group id looks at one number. -/
private theorem steady_gid : Steady gid := by
  intro d d' h s
  rcases h.process_cases with ⟨hp, hp'⟩ | ⟨p, p', hp, hp', ⟨-⟩⟩ <;>
    exact .of_eq (by simp only [gid, hp, hp'])

/-- The check of the working directory looks at one path. -/
private theorem steady_workingDirectory : Steady workingDirectory := by
  intro d d' h s
  rcases h.process_cases with ⟨hp, hp'⟩ | ⟨p, p', hp, hp', ⟨-⟩⟩ <;>
    exact .of_eq (by simp only [workingDirectory, hp, hp'])

/-- The order of the arguments means something, so it is not rearranged. -/
private theorem steady_arguments : Steady arguments := by
  intro d d' h s
  rcases h.process_cases with ⟨hp, hp'⟩ | ⟨p, p', hp, hp', ⟨-⟩⟩ <;>
    exact .of_eq (by simp only [arguments, hp, hp'])

/-- The check of the flag looks at nothing else. -/
private theorem steady_noNewPrivileges : Steady noNewPrivileges := by
  intro d d' h s
  rcases h.process_cases with ⟨hp, hp'⟩ | ⟨p, p', hp, hp', ⟨-⟩⟩ <;>
    exact .of_eq (by simp only [noNewPrivileges, hp, hp'])

/-- The check of the hostname looks at one name. -/
private theorem steady_hostname : Steady hostname := by
  intro d d' h s
  exact .of_eq (by rw [hostname, h.hostname, hostname])

/-- The order of the mounts means something, so it is not rearranged. -/
private theorem steady_mountsExist : Steady mountsExist := by
  intro d d' h s
  exact .of_eq (by rw [mountsExist, h.mounts, mountsExist])

/-- Neither is it for the check of just that order. -/
private theorem steady_mountOrder : Steady mountOrder := by
  intro d d' h s
  -- The same destinations have the same nested pair.
  have hnesting : nesting? d' = nesting? d := by
    rw [nesting?, destinations, h.mounts, ← destinations, ← nesting?]
  exact .of_eq (by simp only [mountOrder, h.intendedPlatform, hnesting])

private theorem steady_defaultFilesystems : Steady defaultFilesystems := fun _ _ _ _ => .of_eq rfl

private theorem steady_defaultSymlinks : Steady defaultSymlinks := fun _ _ _ _ => .of_eq rfl

/-- The default devices depend on whether there is a terminal. -/
private theorem steady_defaultDevices : Steady defaultDevices := by
  intro d d' h s
  exact .of_eq (by rw [defaultDevices, h.terminal, defaultDevices])

/-- The kernel parameters are sorted, in whatever order they are declared. -/
private theorem steady_sysctl : Steady sysctl := by
  intro d d' h s
  exact .of_eq (by rw [sysctl_eq, h.declaredSettings, sysctl_eq])

/-- The check of the score looks at one number. -/
private theorem steady_oomScoreAdj : Steady oomScoreAdj := by
  intro d d' h s
  exact .of_eq (by rw [oomScoreAdj, h.oomScoreAdj, oomScoreAdj])

/-! ## Checks that look at each item by itself -/

/-- Variables are looked at one by one, and no look at one can fail. -/
private theorem steady_environment : Steady environment := by
  intro d d' h s
  rw [environment_eq, environment_eq]
  exact .of_perm (h.declaredEnv.flatMap_right _)

/-- So are the readonly paths. -/
private theorem steady_readonlyPaths : Steady readonlyPaths := by
  intro d d' h s
  have hpaths : (declaredReadonly d).Perm (declaredReadonly d') :=
    h.linux_perm (·.readonlyPaths) fun ⟨_, _, hreadonly, _, _⟩ => hreadonly
  exact .of_perm ((hpaths.filter _).map _)

/-- All groups are looked for among the live ones. -/
private theorem steady_groups : Steady groups := by
  intro d d' h s
  unfold groups
  rcases h.process_cases with ⟨hp, hp'⟩ | ⟨p, p', hp, hp', ⟨hgroups, -, -, -⟩⟩
  · exact .of_eq (by simp only [hp, hp'])
  · simp only [hp, hp', hgroups.isEmpty_eq]
    split
    · exact .holds
    · exact alike_query fun live => .of_perm ((hgroups.filter _).map _)

/-- The number of mappings does not depend on their order either. -/
private theorem alike_mappings (kind : IdKind) {declared declared' : List IdMapping}
    (h : declared.Perm declared') :
    (mappings kind declared s).Alike d s (mappings kind declared' s) := by
  unfold mappings
  simp only [h.isEmpty_eq, h.length_eq]
  split
  · exact .holds
  · refine alike_query fun live => ?_
    split
    · exact .of_eq rfl
    · exact .of_perm ((h.filter _).map _)

/-- The mappings of user ids are a list of the block for Linux. -/
private theorem steady_uidMappings : Steady uidMappings := by
  intro d d' h s
  exact alike_mappings .uid (h.linux_perm (·.uidMappings) fun ⟨_, _, _, huid, _⟩ => huid)

/-- So are those of group ids. -/
private theorem steady_gidMappings : Steady gidMappings := by
  intro d d' h s
  exact alike_mappings .gid (h.linux_perm (·.gidMappings) fun ⟨_, _, _, _, hgid⟩ => hgid)

/-- A capability is looked for in a set, wherever the set names it. -/
private theorem steady_capabilities : Steady capabilities := by
  intro d d' h s
  rcases h.process_cases with ⟨hp, hp'⟩ | ⟨p, p', hp, hp', ⟨-, -, hcapabilities, -⟩⟩
  · exact .of_eq (by simp only [capabilities, hp, hp'])
  · rename_i capabilities' _
    -- The declared names are used in one test only, whether a capability is among them.
    have hfindings (set : CapabilitySet) :
        capabilityFindings ((capabilities'.getD {}).inSet set) =
          capabilityFindings ((p.capabilities.getD {}).inSet set) := by
      funext live set' c
      have hnames : ((capabilities'.getD {}).inSet set).contains c.name =
          ((p.capabilities.getD {}).inSet set).contains c.name := by
        generalize p.capabilities = names at hcapabilities
        cases hcapabilities with
        | none => rfl
        | some hperm => exact (hperm set).contains_eq.symm
      rw [capabilityFindings, hnames, capabilityFindings]
    exact .of_eq (by simp only [capabilities, hp, hp', hfindings])

/-! ## Checks that read each item -/

/-- The declared limits are among the questions about the process. -/
private theorem limits_mem_questions {l : DeclaredLimit} (h : l ∈ d.declaredLimits) :
    .limits l.name ∈ d.questions := by
  unfold Document.declaredLimits at h
  cases hp : d.process with
  | none => simp [hp] at h
  | some p =>
    have hl : l ∈ p.rlimits := by simpa [hp] using h
    have hq : .limits l.name ∈ Document.processQuestions p := List.mem_map_of_mem hl
    simp [Document.questions, hp, hq]

/-- The questions about the block for Linux are asked if there is one. -/
private theorem mem_questions_of_linux {α : Type} {items : LinuxBlock → List α}
    (question : α → Question)
    (hquestion : ∀ l, ∀ a ∈ items l, question a ∈ Document.linuxQuestions l) {a : α}
    (h : a ∈ (d.linux.map items).getD []) : question a ∈ d.questions := by
  cases hl : d.linux with
  | none => simp [hl] at h
  | some l =>
    have hq : question a ∈ Document.linuxQuestions l := hquestion l a (by simpa [hl] using h)
    simp [Document.questions, hl, hq]

/-- Limits that exist are asked for; one that does not is reported without a question. -/
private theorem steady_rlimits : Steady rlimits := by
  intro d d' h s
  rw [rlimits_eq, rlimits_eq]
  refine .conclude (alike_collect (describes_limitFindings s) h.declaredLimits ?_)
  rintro l hl e ⟨q, hq, he, -⟩
  by_cases hknown : Limits.isKnown l.name
  · -- the question that failed is the one for this limit
    obtain rfl : _ = q := by simpa [limitReading, hknown] using hq
    exact ⟨_, limits_mem_questions hl, he, id⟩
  · simp [limitReading, hknown] at hq

/-- Declared devices are asked for their status; one that is missing does not stop the check. -/
private theorem steady_devices : Steady devices := by
  intro d d' h s
  rw [devices_eq, devices_eq]
  refine .conclude (alike_collect (describes_deviceFindings s) h.declaredDevices ?_)
  rintro node hnode e ⟨q, hq, he, hkind⟩
  obtain rfl := Option.some.inj hq
  have hasked : .stat node.path ∈ d.questions :=
    mem_questions_of_linux (fun node : Device => .stat node.path)
      (fun l node hnode => by simpa [Document.linuxQuestions] using ⟨node, hnode, rfl⟩) hnode
  exact ⟨_, hasked, he, by simpa [Question.expects, fileReading] using hkind⟩

/-- Masked paths are asked about one by one. -/
private theorem steady_maskedPaths : Steady maskedPaths := by
  intro d d' h s
  rw [maskedPaths_eq, maskedPaths_eq]
  refine .conclude (alike_collect (describes_maskedPathFindings s) h.declaredMasked ?_)
  rintro path hpath e ⟨q, hq, he, -⟩
  obtain rfl := Option.some.inj hq
  have hasked : .isReadable path ∈ d.questions :=
    mem_questions_of_linux .isReadable
      (fun l path hpath => by simp [Document.linuxQuestions, hpath]) hpath
  exact ⟨_, hasked, he, id⟩

/-! ## All checks -/

/-- No check makes anything of the order of declarations. -/
theorem steady_of_mem_registry : ∀ c ∈ registry, Steady c.run := by
  simp only [registry, List.forall_mem_cons]
  exact ⟨steady_rootFilesystem, steady_uid, steady_gid, steady_groups, steady_workingDirectory,
    steady_arguments, steady_environment, steady_noNewPrivileges, steady_capabilities,
    steady_hostname, steady_rlimits, steady_mountsExist, steady_mountOrder,
    steady_defaultFilesystems, steady_defaultDevices, steady_defaultSymlinks, steady_devices,
    steady_sysctl, steady_maskedPaths, steady_readonlyPaths, steady_oomScoreAdj,
    steady_uidMappings, steady_gidMappings, by simp⟩

end Check

end ContainerAudit
