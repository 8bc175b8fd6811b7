import ContainerAudit.Check.Registry
import ContainerAudit.Proofs.Check.Collecting

/-!
# What a check depends on

Two systems are compared that answer alike, except that the second one leaves some questions of one
topic unanswered (`System.Degraded`).  A check that does not read the topic ends alike on both.
A check that reads it either ends alike, because the document or an earlier answer ends it
before the first such question, or reports nothing but the missing answer: what it had collected by
then is dropped.

The proofs go along the steps of a check.  `MayStop` relates a step on both systems, and is kept by
sequencing (`MayStop.bind`) and by looking at several items (`MayStop.collect`).

## Key results

- `isolated_of_mem_registry`: each check depends on the topics that it reads and no others
-/

namespace ContainerAudit

/-- The system `s'` answers as `s` does, but questions of a topic may be left unanswered for a
    cause that no check expects.  Checks take a refused write probe for a good sign, so probes are
    left out. -/
structure System.Degraded (topic : Question.Topic) (cause : IoError) (s s' : System) : Prop where
  host : s'.host = s.host
  uid : s'.uid = s.uid
  gid : s'.gid = s.gid
  env : s'.env = s.env
  ask (q : Question) : s'.ask q = s.ask q ∨
    q.topic = topic ∧ topic ≠ .writeProbe ∧ s'.ask q = .error cause
  ne_notFound : cause.kind ≠ .notFound
  ne_invalidInput : cause.kind ≠ .invalidInput

/-- The checks that ask questions of a topic, by description.  Write probes do not count, because
    no check is stopped by one. -/
def Question.Topic.readers : Question.Topic → List String
  | mounts => ["mounts exist", "mount order", "default filesystems"]
  | capabilities => ["capabilities"]
  | groups => ["supplementary groups"]
  | workingDirectory => ["working directory"]
  | arguments => ["process arguments"]
  | noNewPrivileges => ["no new privileges"]
  | hostname => ["hostname"]
  | limits => ["rlimits"]
  | sysctl => ["sysctl"]
  | oomScoreAdj => ["oom score adj"]
  | idMap => ["uid mappings", "gid mappings"]
  | stat => ["default devices", "linux devices"]
  | linkTarget => ["default symlinks"]
  | isReadable => ["masked paths"]
  | writeProbe => []

namespace Check

open Question (Topic)

variable {topic : Topic} {cause : IoError} {reads : List Topic} {s s' : System}

/-! ## Steps of a check -/

/-- A step gives the same on both systems, or is stopped on the second one for want of an answer
    to a question that it reads. -/
def MayStop {α : Type} (topic : Topic) (cause : IoError) (reads : List Topic)
    (x x' : Except Finding α) : Prop :=
  x' = x ∨ topic ∈ reads ∧ ∃ what, x' = .error (.unanswered what cause)

/-- Likewise for a whole check. -/
def MayFail (topic : Topic) (cause : IoError) (reads : List Topic) (c c' : Conclusion) : Prop :=
  c' = c ∨ topic ∈ reads ∧ ∃ what, c' = .error [.unanswered what cause]

/-- A check depends on the topics that it reads and no others. -/
def Isolated (reads : List Topic) (run : Document → System → Conclusion) : Prop :=
  ∀ (topic : Topic) (cause : IoError) (s s' : System), System.Degraded topic cause s s' →
    ∀ d, MayFail topic cause reads (run d s) (run d s')

theorem MayStop.refl {α : Type} {x : Except Finding α} : MayStop topic cause reads x x :=
  .inl rfl

/-- A question is answered alike, or its topic is read and the answer is missing. -/
private theorem mayStop_query (h : System.Degraded topic cause s s') (q : Question) (what : String)
    (hq : q.topic ∈ reads) : MayStop topic cause reads (s.query q what) (s'.query q what) := by
  unfold System.query
  rcases h.ask q with heq | ⟨htopic, -, herror⟩
  · -- both systems give the same answer
    rw [heq]
    exact .refl
  · -- the second one gives none, and the finding says so
    rw [herror]
    exact .inr ⟨htopic ▸ hq, what, rfl⟩

/-- Steps after each other: the first one that lacks an answer stops the rest. -/
theorem MayStop.bind {α β : Type} {x x' : Except Finding α} {f f' : α → Except Finding β}
    (hx : MayStop topic cause reads x x') (hf : ∀ a, MayStop topic cause reads (f a) (f' a)) :
    MayStop topic cause reads (x >>= f) (x' >>= f') := by
  -- Where the first step was stopped, what follows does not run.
  rcases hx with rfl | ⟨hread, what, rfl⟩
  · cases x' with
    | error e => exact .refl
    | ok a => exact hf a
  · exact .inr ⟨hread, what, by rfl⟩

/-- A step for each of several items. -/
theorem MayStop.mapM {α β : Type} {f f' : α → Except Finding β}
    (hf : ∀ a, MayStop topic cause reads (f a) (f' a)) (items : List α) :
    MayStop topic cause reads (items.mapM f) (items.mapM f') := by
  -- Induction on the items: each is a step before those of the rest.
  induction items with
  | nil => exact .refl
  | cons a rest ih =>
    rw [List.mapM_cons, List.mapM_cons]
    exact (hf a).bind fun _ => ih.bind fun _ => .refl

/-- Of all items together, only the first missing answer is left. -/
theorem MayStop.collect {α : Type} {f f' : α → Except Finding Findings}
    (hf : ∀ a, MayStop topic cause reads (f a) (f' a)) (items : List α) :
    MayStop topic cause reads (Findings.collect items f) (Findings.collect items f') := by
  -- A missing answer about one item is all that is left of all of them.
  unfold Findings.collect
  rcases MayStop.mapM hf items with heq | ⟨hread, what, herror⟩
  · rw [heq]
    exact .refl
  · rw [herror]
    exact .inr ⟨hread, what, rfl⟩

/-- What stops the last step of a check is all that the check reports. -/
theorem MayStop.conclude {x x' : Except Finding Findings} (h : MayStop topic cause reads x x') :
    MayFail topic cause reads (Check.conclude (.settle x)) (Check.conclude (.settle x')) := by
  rcases h with rfl | ⟨hread, what, rfl⟩
  · exact .inl rfl
  · exact .inr ⟨hread, what, rfl⟩

theorem MayFail.refl {c : Conclusion} : MayFail topic cause reads c c := .inl rfl

/-- A check that asks one question and goes by the answer. -/
private theorem mayFail_query (h : System.Degraded topic cause s s') (q : Question) (what : String)
    (hq : q.topic ∈ reads) (f : q.Answer → Conclusion) :
    MayFail topic cause reads (liftM (s.query q what) >>= f) (liftM (s'.query q what) >>= f) := by
  rcases mayStop_query h q what hq with heq | ⟨hread, what, hstopped⟩
  · rw [heq]
    exact .refl
  · rw [hstopped]
    exact .inr ⟨hread, what, rfl⟩

/-! ## Checks without questions -/

/-- Write probes are answered alike, so what is writable stays so. -/
private theorem isWritable_eq (h : System.Degraded topic cause s s') :
    isWritable s' = isWritable s := by
  funext path
  unfold isWritable
  -- A topic that is left unanswered is never that of the probes.
  rcases h.ask (.writeProbe path) with heq | ⟨htopic, hne, -⟩
  · rw [heq]
  · exact absurd htopic.symm hne

/-- The root filesystem is probed by writing only. -/
private theorem isolated_rootFilesystem : Isolated [] rootFilesystem := by
  intro topic cause s s' h d
  unfold rootFilesystem
  rw [isWritable_eq h]
  exact .refl

/-- So are the readonly paths. -/
private theorem isolated_readonlyPaths : Isolated [] readonlyPaths := by
  intro topic cause s s' h d
  unfold readonlyPaths
  rw [isWritable_eq h]
  exact .refl

/-- The user id is there without a question. -/
private theorem isolated_uid : Isolated [] uid := by
  intro topic cause s s' h d
  unfold uid
  rw [h.uid]
  exact .refl

/-- The group id is there without a question. -/
private theorem isolated_gid : Isolated [] gid := by
  intro topic cause s s' h d
  unfold gid
  rw [h.gid]
  exact .refl

/-- The environment is there without a question. -/
private theorem isolated_environment : Isolated [] environment := by
  intro topic cause s s' h d
  -- The variables are the same, so what is found about each of them is.
  have hvariable : variableFindings s' = variableFindings s := by
    funext entry
    unfold variableFindings
    rw [h.env]
  rw [environment_eq, environment_eq, hvariable]
  exact .refl

/-! ## Checks with one question -/

/-- The groups are asked for if the document declares some. -/
private theorem isolated_groups : Isolated [.groups] groups := by
  intro topic cause s s' h d
  unfold groups
  -- No process, no groups, or the question: only the last case can differ.
  split
  · split
    · exact .refl
    · exact mayFail_query h .groups _ (by simp [Question.topic]) _
  · exact .refl

/-- The mappings of ids are asked for if the document declares some, of either kind. -/
private theorem isolated_mappings (kind : IdKind) (declared : Document → List IdMapping) :
    Isolated [.idMap] fun d => mappings kind (declared d) := by
  intro topic cause s s' h d
  -- Both kinds are one check with two parameters, so the check itself is not unfolded.
  show MayFail _ _ _ (mappings kind (declared d) s) (mappings kind (declared d) s')
  unfold mappings
  split
  · exact .refl
  · exact mayFail_query h (.idMap kind) _ (by simp [Question.topic]) _

/-- The directory is asked for if the document declares one. -/
private theorem isolated_workingDirectory : Isolated [.workingDirectory] workingDirectory := by
  intro topic cause s s' h d
  unfold workingDirectory
  split
  · split
    · exact .refl
    · exact mayFail_query h .workingDirectory _ (by simp [Question.topic]) _
  · exact .refl

/-- The arguments are asked for if the document has a process. -/
private theorem isolated_arguments : Isolated [.arguments] arguments := by
  intro topic cause s s' h d
  unfold arguments
  split
  · exact mayFail_query h .arguments _ (by simp [Question.topic]) _
  · exact .refl

/-- The hostname is asked for if the document declares one. -/
private theorem isolated_hostname : Isolated [.hostname] hostname := by
  intro topic cause s s' h d
  unfold hostname
  dsimp only
  split
  · exact .refl
  · exact mayFail_query h .hostname _ (by simp [Question.topic]) _

/-- The flag is asked for if the document has a process. -/
private theorem isolated_noNewPrivileges : Isolated [.noNewPrivileges] noNewPrivileges := by
  intro topic cause s s' h d
  unfold noNewPrivileges
  split
  · exact mayFail_query h .noNewPrivileges _ (by simp [Question.topic]) _
  · exact .refl

/-- The capabilities are asked for if the document has a process. -/
private theorem isolated_capabilities : Isolated [.capabilities] capabilities := by
  intro topic cause s s' h d
  unfold capabilities
  split
  · exact mayFail_query h .capabilities _ (by simp [Question.topic]) _
  · exact .refl

/-- The score is asked for if the document declares one. -/
private theorem isolated_oomScoreAdj : Isolated [.oomScoreAdj] oomScoreAdj := by
  intro topic cause s s' h d
  unfold oomScoreAdj
  split
  · exact mayFail_query h .oomScoreAdj _ (by simp [Question.topic]) _
  · exact .refl

/-- The table of mounts is always asked for. -/
private theorem isolated_mountsExist : Isolated [.mounts] mountsExist := by
  intro topic cause s s' h d
  exact mayFail_query h .mounts _ (by simp [Question.topic]) _

/-- Here too the table is always asked for. -/
private theorem isolated_defaultFilesystems : Isolated [.mounts] defaultFilesystems := by
  intro topic cause s s' h d
  exact mayFail_query h .mounts _ (by simp [Question.topic]) _

/-- The order of mounts asks for the table, but not always. -/
private theorem isolated_mountOrder : Isolated [.mounts] mountOrder := by
  intro topic cause s s' h d
  unfold mountOrder
  rw [h.host]
  dsimp only
  -- The platform goes by the host, which is the same; the table is asked for only where mounts
  -- stack and some are nested.
  split
  · exact .refl
  · split
    · exact mayFail_query h .mounts _ (by simp [Question.topic]) _
    · exact .refl

/-! ## Checks that look at several items -/

/-- The values of a limit are asked for if there is such a limit. -/
private theorem mayStop_limitFindings (h : System.Degraded topic cause s s') (l : DeclaredLimit) :
    MayStop topic cause [.limits] (limitFindings s l) (limitFindings s' l) := by
  unfold limitFindings
  split
  · exact (mayStop_query h (.limits l.name) _ (by simp [Question.topic])).bind fun _ => .refl
  · exact .refl

/-- The check of the limits asks about each declared limit. -/
private theorem isolated_rlimits : Isolated [.limits] rlimits := by
  intro topic cause s s' h d
  rw [rlimits_eq, rlimits_eq]
  exact (MayStop.collect (mayStop_limitFindings h) _).conclude

/-- A kernel parameter is always asked for. -/
private theorem mayStop_sysctlFindings (h : System.Degraded topic cause s s')
    (entry : String × String) :
    MayStop topic cause [.sysctl] (sysctlFindings s entry) (sysctlFindings s' entry) := by
  unfold sysctlFindings
  exact (mayStop_query h (.sysctl entry.1) _ (by simp [Question.topic])).bind fun _ => .refl

/-- The check of the kernel parameters asks about each declared one. -/
private theorem isolated_sysctl : Isolated [.sysctl] sysctl := by
  intro topic cause s s' h d
  rw [sysctl_eq, sysctl_eq]
  exact (MayStop.collect (mayStop_sysctlFindings h) _).conclude

/-- A masked path is always asked about. -/
private theorem mayStop_maskedPathFindings (h : System.Degraded topic cause s s') (path : String) :
    MayStop topic cause [.isReadable] (maskedPathFindings s path)
      (maskedPathFindings s' path) := by
  unfold maskedPathFindings
  exact (mayStop_query h (.isReadable path) _ (by simp [Question.topic])).bind fun _ => .refl

/-- The check of the masked paths asks about each declared one. -/
private theorem isolated_maskedPaths : Isolated [.isReadable] maskedPaths := by
  intro topic cause s s' h d
  rw [maskedPaths_eq, maskedPaths_eq]
  exact (MayStop.collect (mayStop_maskedPathFindings h) _).conclude

/-- A file that is not there is no failure, but the cause is another one. -/
private theorem mayStop_statIfThere (h : System.Degraded topic cause s s') (path : String) :
    MayStop topic cause [.stat] (statIfThere s path) (statIfThere s' path) := by
  unfold statIfThere
  rcases h.ask (.stat path) with heq | ⟨htopic, -, herror⟩
  · rw [heq]
    exact .refl
  · rw [herror]
    refine .inr ⟨by simp [← htopic, Question.topic], path, ?_⟩
    -- The cause is not the one error that would pass for an answer.
    simp [h.ne_notFound]

/-- The check of the default devices asks for the status of each. -/
private theorem isolated_defaultDevices : Isolated [.stat] defaultDevices := by
  intro topic cause s s' h d
  rw [defaultDevices_eq, defaultDevices_eq]
  refine (MayStop.collect (fun path => ?_) _).conclude
  exact (mayStop_statIfThere h path).bind fun _ => .refl

/-- The check of the declared devices asks for the status of each. -/
private theorem isolated_devices : Isolated [.stat] devices := by
  intro topic cause s s' h d
  rw [devices_eq, devices_eq]
  refine (MayStop.collect (fun device => ?_) _).conclude
  exact (mayStop_statIfThere h device.path).bind fun _ => .refl

/-- Neither of the two errors that the check expects of a link is the cause. -/
private theorem mayStop_symlinkFindings (h : System.Degraded topic cause s s')
    (link target : String) :
    MayStop topic cause [.linkTarget] (symlinkFindings s link target)
      (symlinkFindings s' link target) := by
  unfold symlinkFindings
  rcases h.ask (.linkTarget link) with heq | ⟨htopic, -, herror⟩
  · rw [heq]
    exact .refl
  · rw [herror]
    refine .inr ⟨by simp [← htopic, Question.topic], link, ?_⟩
    simp [h.ne_notFound, h.ne_invalidInput]

/-- The check of the default links asks where each of them leads. -/
private theorem isolated_defaultSymlinks : Isolated [.linkTarget] defaultSymlinks := by
  intro topic cause s s' h d
  rw [defaultSymlinks_eq, defaultSymlinks_eq]
  exact (MayStop.collect (fun (link, target) => mayStop_symlinkFindings h link target) _).conclude

/-! ## All checks -/

/-- Each check depends on topics of which it is listed as a reader, and on no others. -/
theorem isolated_of_mem_registry :
    ∀ c ∈ registry, ∃ reads, Isolated reads c.run ∧ ∀ t ∈ reads, c.description ∈ t.readers := by
  simp only [registry, List.forall_mem_cons]
  exact ⟨⟨_, isolated_rootFilesystem, by decide⟩, ⟨_, isolated_uid, by decide⟩,
    ⟨_, isolated_gid, by decide⟩, ⟨_, isolated_groups, by decide⟩,
    ⟨_, isolated_workingDirectory, by decide⟩, ⟨_, isolated_arguments, by decide⟩,
    ⟨_, isolated_environment, by decide⟩, ⟨_, isolated_noNewPrivileges, by decide⟩,
    ⟨_, isolated_capabilities, by decide⟩, ⟨_, isolated_hostname, by decide⟩,
    ⟨_, isolated_rlimits, by decide⟩, ⟨_, isolated_mountsExist, by decide⟩,
    ⟨_, isolated_mountOrder, by decide⟩, ⟨_, isolated_defaultFilesystems, by decide⟩,
    ⟨_, isolated_defaultDevices, by decide⟩, ⟨_, isolated_defaultSymlinks, by decide⟩,
    ⟨_, isolated_devices, by decide⟩, ⟨_, isolated_sysctl, by decide⟩,
    ⟨_, isolated_maskedPaths, by decide⟩, ⟨_, isolated_readonlyPaths, by decide⟩,
    ⟨_, isolated_oomScoreAdj, by decide⟩, ⟨_, isolated_mappings .uid _, by decide⟩,
    ⟨_, isolated_mappings .gid _, by decide⟩, by simp⟩

end Check

end ContainerAudit
