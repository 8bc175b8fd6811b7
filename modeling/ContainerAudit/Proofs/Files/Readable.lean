import ContainerAudit.Files.Probe
import ContainerAudit.Proofs.Files.Break

/-!
# What can be read at a path

At a directory there is something to read if it has an entry, and at a regular file if it holds a
byte.  Where the way of a path name breaks off there is no file; this counts as nothing to read if a
name is missing, but as an error if a name stands behind a file that is no directory.

## Key results

- `isReadable_eq_true_iff`, `isReadable_eq_false_iff`: where there is something to read, and where
  there is nothing
- `isReadable_of_blocked`: where there is no answer
-/

namespace ContainerAudit.FileTree

open Text (Bytes)

variable {t : FileTree} {place : Place} {path : Bytes}

/-- There is something to read at a place: an entry of a directory, or a byte of a regular file. -/
def HasContent (t : FileTree) (place : Place) : Prop :=
  (t.IsDirectory place ∧ ∃ name, (t.node? (name :: place)).isSome) ∨
    ∃ mode content, t.node? place = some (.regular mode content) ∧ content ≠ []

/-- There is a file at a place exactly if the tree lists one there. -/
private theorem node?_isSome_iff : (t.node? place).isSome ↔ ∃ entry ∈ t.nodes, entry.1 = place := by
  rw [node?, Entries.find?, Option.isSome_map, List.find?_isSome]
  simp

/-- A directory lists a file exactly if there is one in it under some name. -/
theorem hasEntries_iff :
    t.hasEntries place = true ↔ ∃ name, (t.node? (name :: place)).isSome := by
  simp only [hasEntries, List.any_eq_true, node?_isSome_iff]
  constructor
  · rintro ⟨⟨entry, node⟩, hentry, h⟩
    -- The root is listed in no directory.
    cases entry with
    | nil => cases h
    | cons name parent =>
      obtain rfl : parent = place := of_decide_eq_true h
      exact ⟨name, _, hentry, rfl⟩
  · rintro ⟨name, entry, hentry, heq⟩
    exact ⟨entry, hentry, by simp [heq]⟩

/-- A file that is there can be read exactly if there is something in it. -/
private theorem isReadable_of_leadsTo (ht : t.IsPlain) (h : t.LeadsTo path place) :
    ∃ readable, t.isReadable path = .ok readable ∧ (readable = true ↔ t.HasContent place) := by
  -- The walk follows links to the end, so what it finds is no link.
  rcases ht.isDirectoryOrRegular_of_leadsTo h with hdir | ⟨mode, content, hregular⟩
  · obtain ⟨mode, hmode⟩ := isDirectory_iff.mp hdir
    refine ⟨t.hasEntries place, ?_, ?_⟩
    · rw [isReadable, resolve_true_eq_ok_iff.mpr ⟨h, hmode⟩]
      rfl
    · simp [HasContent, hasEntries_iff, hdir, hmode]
  · have hdir : ¬t.IsDirectory place := by
      intro hdir
      obtain ⟨mode', hmode⟩ := isDirectory_iff.mp hdir
      rw [hregular] at hmode
      cases hmode
    refine ⟨!content.isEmpty, ?_, ?_⟩
    · rw [isReadable, resolve_true_eq_ok_iff.mpr ⟨h, hregular⟩]
      rfl
    · simp [HasContent, hregular, hdir]

private theorem isReadable_nil (t : FileTree) : t.isReadable [] = .ok false := rfl

/-- A missing name is no error. -/
private theorem isReadable_of_missing (h : t.BreaksOff path .noEntry) :
    t.isReadable path = .ok false := by
  rw [isReadable, resolve_of_breaksOff h]
  rfl

/-- A name behind a file that is no directory is one. -/
theorem isReadable_of_blocked (h : t.BreaksOff path .notDirectory) :
    t.isReadable path = .error (.ofErrno .notDirectory) := by
  rw [isReadable, resolve_of_breaksOff h]
  rfl

/-- There is something to read exactly at the paths that lead to content. -/
theorem isReadable_eq_true_iff (ht : t.IsPlain) :
    t.isReadable path = .ok true ↔ ∃ place, t.LeadsTo path place ∧ t.HasContent place := by
  constructor
  · intro h
    cases hresolve : t.resolve true path with
    | error e =>
      -- No error is answered with yes.
      rw [isReadable, hresolve] at h
      dsimp only at h
      split at h <;> cases h
    | ok found =>
      have hplace := (resolve_true_eq_ok_iff.mp hresolve).1
      obtain ⟨readable, hreadable, hcontent⟩ := isReadable_of_leadsTo ht hplace
      rw [h] at hreadable
      exact ⟨found.1, hplace, hcontent.mp (Except.ok.inj hreadable).symm⟩
  · rintro ⟨place, hplace, hcontent⟩
    obtain ⟨readable, hreadable, hiff⟩ := isReadable_of_leadsTo ht hplace
    rw [hreadable, hiff.mpr hcontent]

/-- A path that leads nowhere has no answer if it goes on behind a file that is no directory, and
    nothing to read otherwise. -/
private theorem isReadable_of_nowhere (hpath : t.WithinLimits path)
    (hnowhere : ∀ place, ¬t.LeadsTo path place) :
    t.isReadable path = .ok false ∧ ¬t.BreaksOff path .notDirectory ∨
      t.isReadable path = .error (.ofErrno .notDirectory) ∧ t.BreaksOff path .notDirectory := by
  by_cases hblocked : t.BreaksOff path .notDirectory
  · exact .inr ⟨isReadable_of_blocked hblocked, hblocked⟩
  rcases hpath.cases with ⟨place, hplace⟩ | rfl | hmissing | hblocked'
  · exact absurd hplace (hnowhere place)
  · exact .inl ⟨isReadable_nil t, hblocked⟩
  · exact .inl ⟨isReadable_of_missing hmissing, hblocked⟩
  · exact absurd hblocked' hblocked

/-- There is nothing to read at the paths that lead to a file without content, and at those that
    lead nowhere unless they go on behind a file that is no directory. -/
theorem isReadable_eq_false_iff (ht : t.IsPlain) (hpath : t.WithinLimits path) :
    t.isReadable path = .ok false ↔ (∃ place, t.LeadsTo path place ∧ ¬t.HasContent place) ∨
      (∀ place, ¬t.LeadsTo path place) ∧ ¬t.BreaksOff path .notDirectory := by
  by_cases hplace : ∃ place, t.LeadsTo path place
  · obtain ⟨place, hplace⟩ := hplace
    -- A path leads to one place, so nothing else has to be considered.
    have hunique {place' : Place} : t.LeadsTo path place' ↔ place = place' :=
      ⟨hplace.unique, fun heq => heq ▸ hplace⟩
    obtain ⟨readable, hreadable, hcontent⟩ := isReadable_of_leadsTo ht hplace
    rw [hreadable, Except.ok.injEq, ← Bool.not_eq_true, hcontent]
    simp [hunique]
  · have hnowhere := not_exists.mp hplace
    rcases isReadable_of_nowhere hpath hnowhere with ⟨hfalse, hopen⟩ | ⟨herror, hblocked⟩
    · simp [hfalse, hnowhere, hopen]
    · simp [herror, hnowhere, hblocked]

end ContainerAudit.FileTree
