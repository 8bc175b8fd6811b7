import ContainerAudit.Check.Devices
import ContainerAudit.Check.Invocation
import ContainerAudit.Check.Protection
import ContainerAudit.Check.Resource
import ContainerAudit.Proofs.Check.Finding
import ContainerAudit.Proofs.Document.Declared

/-!
# Checks that look at several items

Six checks walk through a list and ask the system about each item.  They differ in what they ask,
and in which errors they take for an answer.  `Reading` says just that about a check, and
`Reading.Gathered` what follows for its conclusion: either every item is read, and it concludes from
the findings about each item alone, one after another; or some item is not, and the first such item
is reported and nothing else.

The proof asks of a check only what it does with one item (`Reading.Describes`), and goes through
the items up to the first one that is not read (`Reading.succeeds_or_fails`).

## Key results

- `rlimits_eq`, `devices_eq`, `sysctl_eq`, `maskedPaths_eq`: the checks by what a document declares
- `Reading.gathered_collect`: a check that reads its items one after another
- `loops_gathered`: the six checks
-/

namespace ContainerAudit

/-- How a check reads its items. -/
structure Reading (α : Type) where
  /-- The question about an item, unless it is judged by the document alone. -/
  question? : α → Option Question
  /-- How a finding calls an item. -/
  what : α → String
  /-- The kinds of errors that the check takes for an answer. -/
  tolerated : List IoErrorKind

namespace Reading

variable {α : Type} {r : Reading α} {s : System}

/-- An item is left unread because of an error. -/
def Fails (r : Reading α) (s : System) (a : α) (e : IoError) : Prop :=
  ∃ q, r.question? a = some q ∧ s.ask q = .error e ∧ e.kind ∉ r.tolerated

/-- An item is read, or needs not be. -/
def Succeeds (r : Reading α) (s : System) (a : α) : Prop := ∀ e, ¬r.Fails s a e

/-- What a check concludes from several items, given what it concludes from each alone. -/
inductive Gathered (r : Reading α) (s : System) (alone : α → Conclusion) :
    List α → Conclusion → Prop where
  /-- Where all items are read, the findings about each follow one another. -/
  | all {items : List α} (hread : ∀ a ∈ items, r.Succeeds s a) :
    Gathered r s alone items (Check.conclude (items.flatMap fun a => (alone a).findings))
  /-- Else the first item that is not read is reported, and nothing that was found before. -/
  | stopped {before after : List α} {a : α} {e : IoError}
    (hread : ∀ b ∈ before, r.Succeeds s b) (hfails : r.Fails s a e) :
    Gathered r s alone (before ++ a :: after) (.error [.unanswered (r.what a) e])

/-- A step of a check does with each item what a reading says. -/
structure Describes {β : α → Type} (r : Reading α) (s : System)
    (step : (a : α) → Except Finding (β a)) : Prop where
  fails {a : α} {e : IoError} (h : r.Fails s a e) : step a = .error (.unanswered (r.what a) e)
  succeeds {a : α} (h : r.Succeeds s a) : ∃ b, step a = .ok b

/-- What follows a step does not stop the check. -/
theorem Describes.bind {β γ : α → Type} {step : (a : α) → Except Finding (β a)}
    (h : r.Describes s step) {next : (a : α) → β a → Except Finding (γ a)}
    (hnext : ∀ a b, ∃ c, next a b = .ok c) : r.Describes s fun a => step a >>= next a where
  fails hfails := by rw [h.fails hfails]; rfl
  succeeds hread := by
    obtain ⟨b, hb⟩ := h.succeeds hread
    obtain ⟨c, hc⟩ := hnext _ b
    exact ⟨c, by rw [hb]; exact hc⟩

/-- What a check concludes from an item alone. -/
def alone (check : α → Except Finding Findings) (a : α) : Conclusion := do
  Check.conclude (← Findings.collect [a] check)

/-- What is found about an item alone is what its step found. -/
theorem findings_alone_of_ok {check : α → Except Finding Findings} {a : α} {fs : Findings}
    (h : check a = .ok fs) : (alone check a).findings = fs := by
  simp [alone, Findings.collect_cons, h, Except.map]

/-- Where all items are read, what is found about them is put together. -/
theorem collect_of_succeeds {check : α → Except Finding Findings} (hcheck : r.Describes s check)
    {items : List α} (hread : ∀ a ∈ items, r.Succeeds s a) :
    Findings.collect items check = .ok (items.flatMap fun a => (alone check a).findings) := by
  induction items with
  | nil => rfl
  | cons a rest ih =>
    obtain ⟨hfirst, hrest⟩ := List.forall_mem_cons.mp hread
    obtain ⟨fs, hfs⟩ := hcheck.succeeds hfirst
    rw [Findings.collect_cons, hfs, ih hrest, List.flatMap_cons, findings_alone_of_ok hfs]
    rfl

/-- The first item that is not read stops the check. -/
theorem collect_of_fails {check : α → Except Finding Findings} (hcheck : r.Describes s check)
    {before : List α} (hread : ∀ b ∈ before, r.Succeeds s b) {a : α} {e : IoError}
    (hfails : r.Fails s a e) (after : List α) :
    Findings.collect (before ++ a :: after) check = .error (.unanswered (r.what a) e) := by
  induction before with
  | nil => rw [List.nil_append, Findings.collect_cons, hcheck.fails hfails]
  | cons b rest ih =>
    obtain ⟨hfirst, hrest⟩ := List.forall_mem_cons.mp hread
    obtain ⟨fs, hfs⟩ := hcheck.succeeds hfirst
    -- What was found about the items before is dropped.
    rw [List.cons_append, Findings.collect_cons, hfs, ih hrest]
    rfl

/-- Either all items are read, or there is a first one that is not. -/
theorem succeeds_or_fails (r : Reading α) (s : System) (items : List α) :
    (∀ a ∈ items, r.Succeeds s a) ∨
      ∃ before a after e, items = before ++ a :: after ∧ (∀ b ∈ before, r.Succeeds s b) ∧
        r.Fails s a e := by
  classical
  cases hfind : items.find? fun a => ¬r.Succeeds s a with
  | none => exact .inl (by simpa using hfind)
  | some a =>
    obtain ⟨ha, before, after, hitems, hbefore⟩ := List.find?_eq_some_iff_append.mp hfind
    obtain ⟨e, he⟩ : ∃ e, r.Fails s a e := by simpa [Succeeds] using ha
    exact .inr ⟨before, a, after, e, hitems, by simpa using hbefore, he⟩

/-- A check that reads its items one after another concludes from what is found about each, or stops
    at the first item that it cannot read. -/
theorem gathered_collect {check : α → Except Finding Findings} (hcheck : r.Describes s check)
    (items : List α) :
    r.Gathered s (alone check) items (Check.conclude (.settle (Findings.collect items check))) := by
  rcases r.succeeds_or_fails s items with hread | ⟨before, a, after, e, rfl, hread, hfails⟩
  · rw [collect_of_succeeds hcheck hread]
    exact .all hread
  · rw [collect_of_fails hcheck hread hfails]
    exact .stopped hread hfails

end Reading

namespace Check

open Findings

variable (s : System)

/-! ## The readings of the six checks -/

/-- A limit that does not exist is not asked for. -/
def limitReading : Reading DeclaredLimit where
  question? l := if Limits.isKnown l.name then some (.limits l.name) else none
  what := (·.name)
  tolerated := []

/-- A file that is not there is a finding of its own. -/
def fileReading {α : Type} (path : α → String) : Reading α where
  question? a := some (.stat (path a))
  what := path
  tolerated := [.notFound]

/-- So is one that is no link. -/
def linkReading : Reading (String × String) where
  question? entry := some (.linkTarget entry.1)
  what := (·.1)
  tolerated := [.notFound, .invalidInput]

/-- A kernel parameter must be there. -/
def settingReading : Reading (String × String) where
  question? entry := some (.sysctl entry.1)
  what entry := s!"sysctl {entry.1}"
  tolerated := []

/-- So must the answer whether a masked path can be read. -/
def maskReading : Reading String where
  question? path := some (.isReadable path)
  what := id
  tolerated := []

/-- A step that asks for an item and stops at any error. -/
private theorem describes_query {α : Type} (q : α → Question) (what : α → String) :
    Reading.Describes ⟨fun a => some (q a), what, []⟩ s fun a => s.query (q a) (what a) where
  fails := by
    rintro a e ⟨_, hq, he, -⟩
    obtain rfl := Option.some.inj hq
    exact System.query_of_error he _
  succeeds {a} h := by
    cases hask : s.ask (q a) with
    | error e => exact absurd ⟨_, rfl, hask, by simp⟩ (h e)
    | ok answer => exact ⟨answer, System.query_of_ok hask _⟩

/-- A kernel parameter is asked for by its name. -/
private theorem describes_sysctlFindings : settingReading.Describes s (sysctlFindings s) :=
  (describes_query s (fun entry : String × String => .sysctl entry.1) _).bind fun _ _ => ⟨_, rfl⟩

/-- A masked path is asked about. -/
theorem describes_maskedPathFindings : maskReading.Describes s (maskedPathFindings s) :=
  (describes_query s .isReadable _).bind fun _ _ => ⟨_, rfl⟩

/-- A limit is asked for if it exists. -/
theorem describes_limitFindings : limitReading.Describes s (limitFindings s) where
  fails := by
    rintro l e ⟨q, hq, he, -⟩
    by_cases hknown : Limits.isKnown l.name
    · obtain rfl : _ = q := by simpa [limitReading, hknown] using hq
      rw [limitFindings, if_pos hknown, System.query_of_error he]
      rfl
    · -- A limit that does not exist is not asked for.
      simp [limitReading, hknown] at hq
  succeeds {l} h := by
    by_cases hknown : Limits.isKnown l.name
    · cases hask : s.ask (.limits l.name) with
      | error e => exact absurd ⟨_, if_pos hknown, hask, by simp [limitReading]⟩ (h e)
      | ok actual =>
        exact ⟨_, by rw [limitFindings, if_pos hknown, System.query_of_ok hask]; rfl⟩
    · exact ⟨_, if_neg hknown⟩

/-- The status of a file is asked for, and that there is no file is an answer. -/
private theorem describes_statIfThere {α : Type} (path : α → String) :
    (fileReading path).Describes s fun a => statIfThere s (path a) where
  fails := by
    rintro a e ⟨_, hq, he, hkind⟩
    obtain rfl := Option.some.inj hq
    have hkind : e.kind ≠ .notFound := by simpa [fileReading] using hkind
    simp [statIfThere, he, hkind, fileReading]
  succeeds {a} h := by
    unfold statIfThere
    cases hask : s.ask (.stat (path a)) with
    | ok stat => exact ⟨some stat, rfl⟩
    | error e =>
      -- That there is no file is no failure, and any other error was excluded.
      by_cases hkind : e.kind = .notFound
      · exact ⟨none, by simp [hkind]⟩
      · exact absurd ⟨_, rfl, hask, by simpa [fileReading] using hkind⟩ (h e)

/-- So is that of a default device. -/
private theorem describes_defaultDeviceFindings :
    (fileReading id).Describes s (defaultDeviceFindings s) :=
  (describes_statIfThere s id).bind fun _ stat => by cases stat <;> exact ⟨_, rfl⟩

/-- So is that of a declared device. -/
theorem describes_deviceFindings :
    (fileReading Device.path).Describes s (deviceFindings s) :=
  (describes_statIfThere s Device.path).bind fun _ stat => by cases stat <;> exact ⟨_, rfl⟩

/-- A link is asked for its target, and that it is missing or no link is an answer. -/
private theorem describes_symlinkFindings :
    linkReading.Describes s
      (fun (link, target) => symlinkFindings s link target :
        String × String → Except Finding Findings) where
  fails := by
    rintro ⟨link, target⟩ e ⟨_, hq, he, hkind⟩
    obtain rfl := Option.some.inj hq
    have hkind : e.kind ≠ .notFound ∧ e.kind ≠ .invalidInput := by
      simpa [linkReading] using hkind
    simp [symlinkFindings, he, hkind, linkReading]
  succeeds {entry} h := by
    obtain ⟨link, target⟩ := entry
    simp only [symlinkFindings]
    cases hask : s.ask (.linkTarget link) with
    | ok actual => exact ⟨_, rfl⟩
    | error e =>
      -- The two kinds of errors that are findings of their own, and all others.
      by_cases hkind : e.kind = .notFound ∨ e.kind = .invalidInput
      · rcases hkind with hkind | hkind <;> simp [hkind]
      · exact absurd ⟨_, rfl, hask, by simpa [linkReading] using hkind⟩ (h e)

/-- What is found about a file, whether it is there or not, or that the system says nothing about
    it. -/
theorem all_settle_statIfThere {P : Finding → Prop} {path : String}
    {f : Option FileStat → Except Finding Findings}
    (hnone : ∀ e, s.ask (.stat path) = .error e → P (.unanswered path e))
    (h : ∀ stat, (settle (f stat)).All P) : (settle (statIfThere s path >>= f)).All P := by
  unfold statIfThere
  split
  · exact h _
  · rename_i e he
    split
    · exact h none
    · exact all_singleton.mpr (hnone e he)

/-! ## The checks by what a document declares -/

section Declared

variable (d : Document)

/-- A document without a process declares no limits, and the check of none holds. -/
theorem rlimits_eq :
    rlimits d s = conclude (settle (collect d.declaredLimits (limitFindings s))) := by
  unfold rlimits Document.declaredLimits
  cases d.process with
  | none => rfl
  | some p => exact liftM_bind_conclude _

/-- A document without a block for Linux declares no devices. -/
theorem devices_eq :
    devices d s = conclude (settle (collect d.declaredDevices (deviceFindings s))) := by
  unfold devices Document.declaredDevices
  cases d.linux with
  | none => rfl
  | some l => exact liftM_bind_conclude _

/-- Nor does it declare kernel parameters. -/
theorem sysctl_eq :
    sysctl d s = conclude (settle (collect d.declaredSettings (sysctlFindings s))) := by
  unfold sysctl Document.declaredSettings
  cases d.linux with
  | none => rfl
  | some l => exact liftM_bind_conclude _

/-- Nor masked paths. -/
theorem maskedPaths_eq :
    maskedPaths d s = conclude (settle (collect d.declaredMasked (maskedPathFindings s))) := by
  unfold maskedPaths Document.declaredMasked
  cases d.linux with
  | none => rfl
  | some l => exact liftM_bind_conclude _

/-- The default devices are the same for all documents, but for the terminal. -/
theorem defaultDevices_eq :
    defaultDevices d s =
      conclude (settle (collect (Layout.devicesFor d.terminal) (defaultDeviceFindings s))) :=
  liftM_bind_conclude _

/-- The default links are the same for all documents. -/
theorem defaultSymlinks_eq :
    defaultSymlinks d s =
      conclude (settle (collect Layout.symlinks fun (link, target) =>
        symlinkFindings s link target)) :=
  liftM_bind_conclude _

/-- Variables are looked at one by one too, but none is asked for. -/
theorem environment_eq :
    environment d s = conclude (d.declaredEnv.flatMap (variableFindings s)) := by
  unfold environment Document.declaredEnv
  cases d.process <;> rfl

end Declared

/-! ## Documents with one item -/

/-- The document with one limit alone. -/
def onlyLimit (d : Document) (l : DeclaredLimit) : Document :=
  { d with process := some { d.process.getD {} with rlimits := [l] } }

/-- The document with one device node alone. -/
def onlyDevice (d : Document) (node : Device) : Document :=
  { d with linux := some { d.linux.getD {} with devices := [node] } }

/-- The document with one kernel parameter alone. -/
def onlySetting (d : Document) (entry : String × String) : Document :=
  { d with linux := some { d.linux.getD {} with sysctl := .ofList [entry] } }

/-- The document with one masked path alone. -/
def onlyMasked (d : Document) (path : String) : Document :=
  { d with linux := some { d.linux.getD {} with maskedPaths := [path] } }

/-! ## The six checks -/

/-- Each check that looks at several items concludes from what it finds about each alone, one after
    another, or it stops at the first item that it cannot read and reports only that.  Kernel
    parameters are looked at in ascending order of their names. -/
theorem loops_gathered (d : Document) (s : System) :
    limitReading.Gathered s (fun l => rlimits (onlyLimit d l) s) d.declaredLimits
        (rlimits d s) ∧
      (fileReading id).Gathered s (Reading.alone (defaultDeviceFindings s))
        (Layout.devicesFor d.terminal) (defaultDevices d s) ∧
      linkReading.Gathered s
        (Reading.alone fun (link, target) => symlinkFindings s link target) Layout.symlinks
        (defaultSymlinks d s) ∧
      (fileReading Device.path).Gathered s (fun node => devices (onlyDevice d node) s)
        d.declaredDevices (devices d s) ∧
      (settingReading.Gathered s (fun entry => sysctl (onlySetting d entry) s)
          d.declaredSettings (sysctl d s) ∧
        d.declaredSettings.Pairwise fun entry later => entry.1 < later.1) ∧
      maskReading.Gathered s (fun path => maskedPaths (onlyMasked d path) s) d.declaredMasked
        (maskedPaths d s) := by
  have hsorted : d.declaredSettings.Pairwise fun entry later => entry.1 < later.1 := by
    unfold Document.declaredSettings
    cases d.linux with
    | none => exact .nil
    | some l => exact l.sysctl.sorted
  -- Each check collects what its step finds, and each step does what its reading describes.
  rw [rlimits_eq, defaultDevices_eq, defaultSymlinks_eq, devices_eq, sysctl_eq, maskedPaths_eq]
  exact ⟨Reading.gathered_collect (describes_limitFindings s) _,
    Reading.gathered_collect (describes_defaultDeviceFindings s) _,
    Reading.gathered_collect (describes_symlinkFindings s) _,
    Reading.gathered_collect (describes_deviceFindings s) _,
    ⟨Reading.gathered_collect (describes_sysctlFindings s) _, hsorted⟩,
    Reading.gathered_collect (describes_maskedPathFindings s) _⟩

end Check

end ContainerAudit
