import ContainerAudit.Check.Registry
import ContainerAudit.Proofs.Check.Collecting
import ContainerAudit.Proofs.Text.Line

/-!
# Line feeds in findings

A finding quotes the document and the system as they are, so it breaks its line where they do.  It
never does of itself: where no text that a check can quote holds a line feed (`Document.Plain`,
`System.Plain`), no finding of any check holds one.

## Key results

- `oneLine_query`: what is found from an answer, or from its lack
- `oneLine_of_mem_registry`: all checks
-/

namespace ContainerAudit

open Text (OneLine)

/-- The texts of an answer that a check can quote. -/
def Question.quoted : (q : Question) → q.Answer → List String
  | .mounts, table => table.flatMap fun r => [r.fstype, r.source]
  | .workingDirectory, bytes | .linkTarget _, bytes => [Text.decodeLossy bytes]
  | .arguments, args => args
  | .hostname, name => [name]
  | .sysctl _, value => [value]
  | _, _ => []

/-- No text of a document that a check can quote holds a line feed. -/
structure Document.Plain (d : Document) : Prop where
  platform : ∀ p, d.platform = some p → OneLine (Platform.ofName p.os).name
  hostname : OneLine (d.hostname.getD "")
  mounts : ∀ m ∈ d.mounts, OneLine m.destination ∧ OneLine m.fstype ∧ OneLine m.source
  start : ∀ p, d.process = some p → OneLine p.cwd ∧ ∀ arg ∈ p.args, OneLine arg
  env : ∀ entry ∈ d.declaredEnv, OneLine entry
  limits : ∀ l ∈ d.declaredLimits, OneLine l.name
  devices : ∀ node ∈ d.declaredDevices, OneLine node.path ∧ OneLine node.type
  settings : ∀ entry ∈ d.declaredSettings, OneLine entry.1 ∧ OneLine entry.2
  masked : ∀ path ∈ d.declaredMasked, OneLine path
  readonly : ∀ path ∈ Check.declaredReadonly d, OneLine path

/-- No text of a system that a check can quote holds a line feed, unless the question did. -/
structure System.Plain (s : System) : Prop where
  host : OneLine s.host.name
  env : ∀ name value, OneLine name → s.env name = some value → OneLine value
  answer : ∀ q a, OneLine q.argument → s.ask q = .ok a → ∀ text ∈ q.quoted a, OneLine text
  error : ∀ q e, OneLine q.argument → s.ask q = .error e → OneLine e.message

/-! ## Findings -/

namespace Finding

/-- The text of a finding stays on its line. -/
def OneLine (f : Finding) : Prop := Text.OneLine f.message

/-- A mismatch quotes what was compared and both of its values. -/
@[simp] theorem oneLine_mismatch {what expected actual : String} :
    (mismatch what expected actual).OneLine ↔
      Text.OneLine what ∧ Text.OneLine expected ∧ Text.OneLine actual := by
  unfold OneLine message
  simp +decide [and_assoc]

@[simp] theorem oneLine_violation {text : String} :
    (violation text).OneLine ↔ Text.OneLine text := .rfl

/-- An unknown limit is quoted by the name that the document gives it. -/
@[simp] theorem oneLine_unknownLimit {name : String} :
    (unknownLimit name).OneLine ↔ Text.OneLine name := by
  unfold OneLine message
  simp +decide

/-- The lack of an answer is reported with what was asked for and the message of its cause. -/
@[simp] theorem oneLine_unanswered {what : String} {cause : IoError} :
    (unanswered what cause).OneLine ↔ Text.OneLine what ∧ Text.OneLine cause.message := by
  unfold OneLine message
  simp +decide

/-- A check that makes no sense names the platform. -/
@[simp] theorem oneLine_unsupported {platform : String} :
    (unsupported platform).OneLine ↔ Text.OneLine platform := by
  unfold OneLine message
  simp +decide

end Finding

/-- The text of several findings stays on its line exactly if that of each does. -/
theorem Findings.oneLine_message {fs : Findings} :
    OneLine fs.message ↔ fs.All Finding.OneLine := by
  rw [message, Text.oneLine_intercalate (by decide), List.forall_mem_map]
  rfl

/-! ## Names -/

/-- A document or else the host gives the platform its name. -/
theorem Document.oneLine_intendedPlatform {d : Document} {s : System} (hd : d.Plain)
    (hs : s.Plain) : OneLine (d.intendedPlatform s.host).name := by
  unfold intendedPlatform
  split
  · rename_i p hp
    split
    · exact hs.host -- an empty name counts as none
    · exact hd.platform p hp
  · exact hs.host

/-- The names of the capabilities are a fixed table. -/
@[simp] theorem Capability.oneLine_name (c : Capability) : OneLine c.name := by
  -- The whole table is looked at once, which is cheaper than one look for each capability.
  have hnames : ∀ name ∈ capabilityNames, OneLine name := by decide +kernel
  exact hnames _ (List.get_mem _ _)

@[simp] theorem CapabilitySet.oneLine_name (set : CapabilitySet) : OneLine set.name := by
  cases set <;> decide

@[simp] theorem IdKind.oneLine_name (kind : IdKind) : OneLine kind.name := by
  cases kind <;> decide

@[simp] theorem DeviceKind.oneLine_name (kind : DeviceKind) : OneLine kind.name := by
  cases kind <;> decide

/-- The name and the value in an entry of the environment are parts of it. -/
private theorem Process.oneLine_splitEntry {entry : String} (h : OneLine entry) :
    OneLine (splitEntry entry).1 ∧ OneLine (splitEntry entry).2 := by
  constructor <;> intro hmem
  · rw [splitEntry, String.toList_ofList] at hmem
    exact h ((List.takeWhile_sublist _).mem hmem)
  · rw [splitEntry, String.toList_ofList] at hmem
    exact h ((List.dropWhile_sublist _).mem ((List.drop_sublist _ _).mem hmem))

namespace Check

open Findings

variable {d : Document} {s : System}

/-! ## Checks without questions -/

/-- The check of the root filesystem quotes nothing. -/
private theorem oneLine_rootFilesystem : Reports Finding.OneLine (rootFilesystem d s) := by
  unfold rootFilesystem
  split <;> simp +decide

/-- The check of the user id quotes numbers only. -/
private theorem oneLine_uid : Reports Finding.OneLine (uid d s) := by
  unfold uid
  split <;> simp +decide

/-- The check of the group id quotes numbers only. -/
private theorem oneLine_gid : Reports Finding.OneLine (gid d s) := by
  unfold gid
  split <;> simp +decide

/-- The check of the readonly paths quotes the declared paths. -/
private theorem oneLine_readonlyPaths (hd : d.Plain) :
    Reports Finding.OneLine (readonlyPaths d s) := by
  refine reports_conclude.mpr (all_map.mpr fun path hpath => ?_)
  simp +decide [hd.readonly path (List.mem_filter.mp hpath).1]

/-- A variable is reported by its name, its declared value and its actual one, which is as plain as
    the question for it. -/
private theorem oneLine_variableFindings (hs : s.Plain) {entry : String} (h : OneLine entry) :
    (variableFindings s entry).All Finding.OneLine := by
  obtain ⟨hname, hexpected⟩ := Process.oneLine_splitEntry h
  -- A variable that is not set is quoted as empty.
  have hactual : OneLine ((s.env (Process.splitEntry entry).1).getD "") := by
    cases hvalue : s.env (Process.splitEntry entry).1 with
    | none => simp
    | some value => exact hs.env _ value hname hvalue
  simp +decide [variableFindings, hname, hexpected, hactual]

/-- The check of the environment reports what is found about each declared variable. -/
private theorem oneLine_environment (hd : d.Plain) (hs : s.Plain) :
    Reports Finding.OneLine (environment d s) := by
  rw [environment_eq, reports_conclude, all_flatMap]
  exact fun entry hentry => oneLine_variableFindings hs (hd.env entry hentry)

/-! ## Checks with one question -/

/-- What a check reports from a plain answer, or from its lack. -/
theorem oneLine_query (hs : s.Plain) (q : Question) (hq : OneLine q.argument) {what : String}
    (hwhat : OneLine what) {f : q.Answer → Conclusion}
    (h : ∀ a, (∀ text ∈ q.quoted a, OneLine text) → Reports Finding.OneLine (f a)) :
    Reports Finding.OneLine (liftM (s.query q what) >>= f) :=
  Reports.query (fun e he => Finding.oneLine_unanswered.mpr ⟨hwhat, hs.error q e hq he⟩)
    fun a ha => h a (hs.answer q a hq ha)

/-- What is found about one item from a plain answer, or from its lack. -/
private theorem oneLine_settle_query (hs : s.Plain) (q : Question) (hq : OneLine q.argument)
    {what : String} (hwhat : OneLine what) {f : q.Answer → Except Finding Findings}
    (h : ∀ a, (∀ text ∈ q.quoted a, OneLine text) → (settle (f a)).All Finding.OneLine) :
    (settle (s.query q what >>= f)).All Finding.OneLine :=
  all_settle_query (fun e he => Finding.oneLine_unanswered.mpr ⟨hwhat, hs.error q e hq he⟩)
    fun a ha => h a (hs.answer q a hq ha)

/-- The check of the supplementary groups quotes numbers only. -/
private theorem oneLine_groups (hs : s.Plain) : Reports Finding.OneLine (groups d s) := by
  unfold groups
  split
  · split
    · simp
    · exact oneLine_query hs .groups (by decide) (by decide) fun live _ => by simp +decide
  · simp

/-- The checks of the id mappings quote numbers and the name of the kind of ids. -/
private theorem oneLine_mappings (hs : s.Plain) (kind : IdKind) (declared : List IdMapping) :
    Reports Finding.OneLine (mappings kind declared s) := by
  unfold mappings
  split
  · simp
  · refine oneLine_query hs (.idMap kind) kind.oneLine_name (by simp +decide) fun live _ => ?_
    split <;> simp +decide [mappingNotFound]

/-- The check of the working directory quotes the declared directory and the actual one. -/
private theorem oneLine_workingDirectory (hd : d.Plain) (hs : s.Plain) :
    Reports Finding.OneLine (workingDirectory d s) := by
  unfold workingDirectory
  split
  · rename_i p hp
    split
    · simp
    · refine oneLine_query hs .workingDirectory (by decide) (by decide) fun actual hactual => ?_
      -- Only the text that is shown of the directory is plain; its bytes may be anything.
      have hshown : OneLine (Text.decodeLossy actual) := by simpa [Question.quoted] using hactual
      simp +decide [(hd.start p hp).1, hshown]
  · simp

/-- The check of the arguments quotes numbers, or a declared argument and the actual one in its
    place. -/
private theorem oneLine_arguments (hd : d.Plain) (hs : s.Plain) :
    Reports Finding.OneLine (arguments d s) := by
  unfold arguments
  split
  · rename_i p hp
    refine oneLine_query hs .arguments (by decide) (by decide) fun actual hactual => ?_
    split
    · simp +decide -- the numbers of the arguments differ
    · -- Each pair is made of an argument of the document and one of the process.
      refine reports_conclude.mpr (all_flatMap.mpr fun ⟨⟨expected, live⟩, i⟩ hmem => ?_)
      obtain ⟨hexpected, hlive⟩ := List.of_mem_zip (List.fst_mem_of_mem_zipIdx hmem)
      simp +decide [(hd.start p hp).2 expected hexpected, hactual live hlive]
  · simp

/-- The check of the hostname quotes the declared name and the actual one. -/
private theorem oneLine_hostname (hd : d.Plain) (hs : s.Plain) :
    Reports Finding.OneLine (hostname d s) := by
  unfold hostname
  dsimp only
  split
  · simp
  · refine oneLine_query hs .hostname (by decide) (by decide) fun actual hactual => ?_
    have hlive : OneLine actual := by simpa [Question.quoted] using hactual
    simp +decide [hd.hostname, hlive]

/-- The check of the flag quotes truth values only. -/
private theorem oneLine_noNewPrivileges (hs : s.Plain) :
    Reports Finding.OneLine (noNewPrivileges d s) := by
  unfold noNewPrivileges
  split
  · exact oneLine_query hs .noNewPrivileges (by decide) (by decide) fun actual _ => by simp +decide
  · simp

/-- A capability is reported by its name and that of the set. -/
private theorem oneLine_capabilityFindings (declared : List String) (live : HeldCapabilities)
    (set : CapabilitySet) (c : Capability) :
    (capabilityFindings declared live set c).All Finding.OneLine := by
  unfold capabilityFindings
  dsimp only
  split <;> simp +decide

/-- The check of the capabilities reports what is found about each capability of each set. -/
private theorem oneLine_capabilities (hs : s.Plain) :
    Reports Finding.OneLine (capabilities d s) := by
  unfold capabilities
  split
  · refine oneLine_query hs .capabilities (by decide) (by decide) fun live _ => ?_
    exact reports_conclude.mpr (all_flatMap.mpr fun set _ => all_flatMap.mpr fun c _ =>
      oneLine_capabilityFindings _ live set c)
  · simp

/-- The check of the score quotes numbers only. -/
private theorem oneLine_oomScoreAdj (hs : s.Plain) : Reports Finding.OneLine (oomScoreAdj d s) := by
  unfold oomScoreAdj
  split
  · exact oneLine_query hs .oomScoreAdj (by decide) (by decide) fun actual _ => by simp +decide
  · simp

/-! ## Mounts -/

/-- The type and the source of a mount that was found in a plain table. -/
private theorem oneLine_of_mem_mountsAt {live : MountTable}
    (h : ∀ text ∈ Question.quoted .mounts live, OneLine text) {path : String} {r : LiveMount}
    (hr : r ∈ live.mountsAt path) : OneLine r.fstype ∧ OneLine r.source := by
  have hlive : r ∈ live := (List.mem_filter.mp hr).1
  -- The texts of the table are those of its mounts, one mount after the other.
  have htexts : ∀ text ∈ [r.fstype, r.source], OneLine text := fun text htext =>
    h text (List.mem_flatMap.mpr ⟨r, hlive, htext⟩)
  simpa using htexts

/-- A mount is reported by its canonical destination, its type and its source, with the type and
    source of the last mount there. -/
private theorem oneLine_mountFindings (hd : d.Plain) {live : MountTable}
    (hlive : ∀ text ∈ Question.quoted .mounts live, OneLine text) {m : Mount} (hm : m ∈ d.mounts) :
    (mountFindings live m).All Finding.OneLine := by
  obtain ⟨hdestination, hfstype, hsource⟩ := hd.mounts m hm
  have hpath := Text.oneLine_canonical hdestination
  unfold mountFindings
  dsimp only
  -- The last mount at the destination is quoted, if there is one.
  split
  · rename_i r hr
    obtain ⟨hactual, hactual'⟩ := oneLine_of_mem_mountsAt hlive (List.mem_of_getLast? hr)
    simp +decide [hpath, hfstype, Text.oneLine_canonical hsource, hactual, hactual']
  · simp +decide [hpath, hfstype, Text.oneLine_canonical hsource]

/-- The check that the mounts exist reports what is found about each declared mount. -/
private theorem oneLine_mountsExist (hd : d.Plain) (hs : s.Plain) :
    Reports Finding.OneLine (mountsExist d s) :=
  oneLine_query hs .mounts (by decide) (by decide) fun _ hlive =>
    reports_conclude.mpr <| all_flatMap.mpr fun _ hm =>
      oneLine_mountFindings hd hlive (List.mem_filter.mp hm).1

/-- A default filesystem is reported by its mountpoint and its type, with the type of the last mount
    there. -/
private theorem oneLine_filesystemFindings {live : MountTable}
    (hlive : ∀ text ∈ Question.quoted .mounts live, OneLine text) {mountpoint fstype : String}
    (hmountpoint : OneLine mountpoint) (hfstype : OneLine fstype) :
    (filesystemFindings live mountpoint fstype).All Finding.OneLine := by
  unfold filesystemFindings
  split
  · rename_i r hr
    obtain ⟨hactual, -⟩ := oneLine_of_mem_mountsAt hlive (List.mem_of_getLast? hr)
    simp +decide [hmountpoint, hfstype, hactual]
  · simp +decide [hmountpoint, hfstype]

/-- The check of the default filesystems looks for a fixed table in the mounts of the system. -/
private theorem oneLine_defaultFilesystems (hs : s.Plain) :
    Reports Finding.OneLine (defaultFilesystems d s) := by
  have hlayout : ∀ entry ∈ Layout.filesystems, OneLine entry.1 ∧ OneLine entry.2 := by decide
  refine oneLine_query hs .mounts (by decide) (by decide) fun live hlive =>
    reports_conclude.mpr (all_flatMap.mpr fun entry hentry => ?_)
  exact oneLine_filesystemFindings hlive (hlayout entry hentry).1 (hlayout entry hentry).2

/-- Both paths of a nesting are destinations of the document. -/
private theorem oneLine_of_nesting? (hd : d.Plain) {n : Nesting} (h : nesting? d = some n) :
    OneLine n.ancestor ∧ OneLine n.descendant := by
  have hdestinations : ∀ path ∈ destinations d, OneLine path :=
    List.forall_mem_map.mpr fun m hm => Text.oneLine_canonical (hd.mounts m hm).1
  -- Both paths of the nesting are taken out of the list of destinations.
  obtain ⟨⟨a, b⟩, -, h⟩ := Option.bind_eq_some_iff.mp h
  obtain ⟨ancestor, hancestor, h⟩ := Option.bind_eq_some_iff.mp h
  obtain ⟨descendant, hdescendant, h⟩ := Option.bind_eq_some_iff.mp h
  obtain rfl := Option.some.inj h
  exact ⟨hdestinations _ (List.mem_of_getElem? hancestor),
    hdestinations _ (List.mem_of_getElem? hdescendant)⟩

private theorem oneLine_activity (active : Bool) : OneLine (activity active) := by
  cases active <;> decide

/-- The check of the mount order quotes the platform, or both paths of a nesting. -/
private theorem oneLine_mountOrder (hd : d.Plain) (hs : s.Plain) :
    Reports Finding.OneLine (mountOrder d s) := by
  unfold mountOrder
  dsimp only
  split
  · simpa using Document.oneLine_intendedPlatform hd hs
  · split
    · -- Two paths of the document are quoted, and nothing of the table.
      rename_i n hn
      obtain ⟨hancestor, hdescendant⟩ := oneLine_of_nesting? hd hn
      refine oneLine_query hs .mounts (by decide) (by decide) fun live _ => ?_
      unfold nestingFindings
      dsimp only
      split <;> simp +decide [hancestor, hdescendant, oneLine_activity]
    · simp

/-! ## Checks that look at several items -/

/-- The check of the limits quotes the declared names and numbers. -/
private theorem oneLine_rlimits (hd : d.Plain) (hs : s.Plain) :
    Reports Finding.OneLine (rlimits d s) := by
  rw [rlimits_eq, reports_conclude]
  refine all_settle_collect fun l hl => ?_
  have hname : OneLine l.name := hd.limits l hl
  unfold limitFindings
  -- A limit that exists is asked for; one that does not is reported by its name.
  split
  · exact oneLine_settle_query hs (.limits l.name) hname hname fun _ _ => by simp +decide [hname]
  · simpa using hname

/-- The check of the kernel parameters quotes the declared keys and values and the actual values. -/
private theorem oneLine_sysctl (hd : d.Plain) (hs : s.Plain) :
    Reports Finding.OneLine (sysctl d s) := by
  rw [sysctl_eq, reports_conclude]
  refine all_settle_collect fun entry hentry => ?_
  obtain ⟨hkey, hexpected⟩ := hd.settings entry hentry
  refine oneLine_settle_query hs (.sysctl entry.1) hkey (by simp +decide [hkey])
    fun actual hactual => ?_
  have hlive : OneLine actual := by simpa [Question.quoted] using hactual
  simp +decide [hkey, hexpected, hlive]

/-- The check of the masked paths quotes the declared paths. -/
private theorem oneLine_maskedPaths (hd : d.Plain) (hs : s.Plain) :
    Reports Finding.OneLine (maskedPaths d s) := by
  rw [maskedPaths_eq, reports_conclude]
  refine all_settle_collect fun path hpath => ?_
  have hpath : OneLine path := hd.masked path hpath
  exact oneLine_settle_query hs (.isReadable path) hpath hpath fun _ _ => by simp +decide [hpath]

/-- A file that is not there, or that the system says nothing about, ends the look at it. -/
private theorem oneLine_statIfThere (hs : s.Plain) {path : String} (hpath : OneLine path)
    {f : Option FileStat → Except Finding Findings}
    (h : ∀ stat, (settle (f stat)).All Finding.OneLine) :
    (settle (statIfThere s path >>= f)).All Finding.OneLine :=
  all_settle_statIfThere s (fun e he =>
    Finding.oneLine_unanswered.mpr ⟨hpath, hs.error (.stat path) e hpath he⟩) h

/-- A missing node is reported by its path. -/
private theorem oneLine_nodeNotFound {path : String} (h : OneLine path) :
    (nodeNotFound path).OneLine := by
  simp +decide [nodeNotFound, h]

/-- The check of the default devices quotes paths of a fixed table. -/
private theorem oneLine_defaultDevices (hs : s.Plain) :
    Reports Finding.OneLine (defaultDevices d s) := by
  have hlayout : ∀ terminal, ∀ path ∈ Layout.devicesFor terminal, OneLine path := by decide
  rw [defaultDevices_eq, reports_conclude]
  refine all_settle_collect fun path hmem => ?_
  have hpath := hlayout _ path hmem
  refine oneLine_statIfThere hs hpath fun stat => ?_
  cases stat with
  | some stat => simp +decide [hpath]
  | none => simpa using oneLine_nodeNotFound hpath

/-- An attribute of a node is reported by what it is and both of its values. -/
private theorem oneLine_attributeFindings {α : Type} [DecidableEq α] {what : String}
    (hwhat : OneLine what) {display : α → String} (hdisplay : ∀ a, OneLine (display a))
    (expected : Option α) (actual : α) :
    (attributeFindings what display expected actual).All Finding.OneLine := by
  cases expected <;> simp [attributeFindings, hwhat, hdisplay]

/-- The number of a node is reported by its path and numbers. -/
private theorem oneLine_numberFindings {node : Device} (hpath : OneLine node.path)
    (stat : FileStat) : (numberFindings node stat).All Finding.OneLine := by
  unfold numberFindings
  split <;> simp +decide [hpath]

/-- A node is reported by its path and its declared type; all else is numbers and fixed words. -/
private theorem oneLine_nodeFindings {node : Device} (hpath : OneLine node.path)
    (htype : OneLine node.type) (stat : FileStat) :
    (nodeFindings node stat).All Finding.OneLine := by
  unfold nodeFindings
  split
  · -- The number, then the permissions, the owner and the group, each if it is declared.
    simp only [all_append]
    exact ⟨⟨⟨oneLine_numberFindings hpath stat,
      oneLine_attributeFindings (by simp +decide [hpath]) (fun _ => by simp) _ _⟩,
      oneLine_attributeFindings (by simp +decide [hpath]) (fun _ => by simp) _ _⟩,
      oneLine_attributeFindings (by simp +decide [hpath]) (fun _ => by simp) _ _⟩
  · simp +decide [hpath, htype]

/-- The check of the devices reports what is found about each declared node. -/
private theorem oneLine_devices (hd : d.Plain) (hs : s.Plain) :
    Reports Finding.OneLine (devices d s) := by
  rw [devices_eq, reports_conclude]
  refine all_settle_collect fun node hnode => ?_
  obtain ⟨hpath, htype⟩ := hd.devices node hnode
  refine oneLine_statIfThere hs hpath fun stat => ?_
  cases stat with
  | some stat => exact oneLine_nodeFindings hpath htype stat
  | none => simpa using oneLine_nodeNotFound hpath

/-- A link is reported by its path, with the target that it should have and the one that it has. -/
private theorem oneLine_symlinkFindings (hs : s.Plain) {link target : String} (hlink : OneLine link)
    (htarget : OneLine target) : (settle (symlinkFindings s link target)).All Finding.OneLine := by
  unfold symlinkFindings
  -- A link that is there is quoted with its target; of the errors, only an unexpected one is.
  split
  · rename_i actual hactual
    have hshown : OneLine (Text.decodeLossy actual) :=
      hs.answer (.linkTarget link) actual hlink hactual _ (by simp [Question.quoted])
    simp +decide [hlink, htarget, hshown]
  · rename_i e he
    split
    · simp +decide [hlink]
    · split
      · simp +decide [hlink]
      · simpa using ⟨hlink, hs.error (.linkTarget link) e hlink he⟩

/-- The check of the default symlinks looks for a fixed table. -/
private theorem oneLine_defaultSymlinks (hs : s.Plain) :
    Reports Finding.OneLine (defaultSymlinks d s) := by
  have hlayout : ∀ entry ∈ Layout.symlinks, OneLine entry.1 ∧ OneLine entry.2 := by decide
  rw [defaultSymlinks_eq, reports_conclude]
  refine all_settle_collect fun entry hentry => ?_
  exact oneLine_symlinkFindings hs (hlayout entry hentry).1 (hlayout entry hentry).2

/-! ## All checks -/

/-- No check makes a line feed of its own. -/
theorem oneLine_of_mem_registry (hd : d.Plain) (hs : s.Plain) :
    ∀ c ∈ registry, Reports Finding.OneLine (c.run d s) := by
  simp only [registry, List.forall_mem_cons]
  exact ⟨oneLine_rootFilesystem, oneLine_uid, oneLine_gid, oneLine_groups hs,
    oneLine_workingDirectory hd hs, oneLine_arguments hd hs, oneLine_environment hd hs,
    oneLine_noNewPrivileges hs, oneLine_capabilities hs, oneLine_hostname hd hs,
    oneLine_rlimits hd hs, oneLine_mountsExist hd hs, oneLine_mountOrder hd hs,
    oneLine_defaultFilesystems hs, oneLine_defaultDevices hs, oneLine_defaultSymlinks hs,
    oneLine_devices hd hs, oneLine_sysctl hd hs, oneLine_maskedPaths hd hs,
    oneLine_readonlyPaths hd, oneLine_oomScoreAdj hs, oneLine_mappings hs .uid _,
    oneLine_mappings hs .gid _, by simp⟩

end Check

end ContainerAudit
