import ContainerAudit.Document.Settings
import Mathlib.Data.List.Perm.Basic
import Mathlib.Data.List.Sort

/-!
# Settings from their entries

Settings hold each entry that they are made of, as long as no name comes twice.  As they are sorted,
the order in which the entries come does not matter.

## Key results

- `Settings.perm_ofList`: the entries of settings are those that they are made of
- `Settings.ofList_entries`: settings are made of their entries
-/

namespace ContainerAudit.Settings

/-- A new name adds its entry. -/
private theorem perm_insertEntry {name value : String} {entries : List (String × String)}
    (h : ∀ entry ∈ entries, entry.1 ≠ name) :
    (insertEntry name value entries).Perm ((name, value) :: entries) := by
  induction entries with
  | nil => exact .refl _
  | cons first rest ih =>
    obtain ⟨hfirst, hrest⟩ := List.forall_mem_cons.mp h
    rw [insertEntry]
    -- The new entry stands before the first one, or somewhere behind it.
    split
    · exact .refl _
    · rw [if_neg (Ne.symm hfirst)]
      exact ((ih hrest).cons first).trans (.swap _ _ _)

/-- New names add their entries, in any order. -/
private theorem perm_foldl_insert {entries : List (String × String)}
    (hnodup : (entries.map (·.1)).Nodup) (s : Settings)
    (hnew : ∀ entry ∈ entries, ∀ old ∈ s.entries, old.1 ≠ entry.1) :
    (entries.foldl (fun s (name, value) => s.insert name value) s).entries.Perm
      (entries ++ s.entries) := by
  induction entries generalizing s with
  | nil => exact .refl _
  | cons entry rest ih =>
    obtain ⟨hentry, hrest⟩ := List.forall_mem_cons.mp hnew
    obtain ⟨hname, hnodup⟩ := List.nodup_cons.mp hnodup
    have hinsert : (s.insert entry.1 entry.2).entries.Perm (entry :: s.entries) :=
      perm_insertEntry hentry
    -- The other names are still new: they differ from the inserted one and from those before.
    have hnew' : ∀ later ∈ rest, ∀ old ∈ (s.insert entry.1 entry.2).entries, old.1 ≠ later.1 := by
      intro later hlater old hold
      rcases List.mem_cons.mp (hinsert.mem_iff.mp hold) with rfl | hold
      · exact fun heq => hname (List.mem_map.mpr ⟨later, hlater, heq.symm⟩)
      · exact hrest later hlater old hold
    rw [List.foldl_cons]
    exact (ih hnodup _ hnew').trans ((hinsert.append_left rest).trans List.perm_middle)

/-- The entries of settings are those that they are made of. -/
theorem perm_ofList {entries : List (String × String)} (hnodup : (entries.map (·.1)).Nodup) :
    (ofList entries).entries.Perm entries := by
  have h := perm_foldl_insert hnodup empty (fun _ _ _ hold => nomatch hold)
  rwa [empty, List.append_nil] at h

/-- Settings with the same entries are equal, in whatever order these are listed. -/
private theorem eq_of_perm {s t : Settings} (h : s.entries.Perm t.entries) : s = t := by
  refine ext_entries (h.eq_of_pairwise (fun a b _ _ hab hba => ?_) s.sorted t.sorted)
  exact absurd (String.lt_trans hab hba) (String.lt_irrefl _)

/-- The order of the entries does not matter where no name comes twice. -/
theorem ofList_eq_of_perm {entries entries' : List (String × String)}
    (hnodup : (entries.map (·.1)).Nodup) (h : entries.Perm entries') :
    ofList entries = ofList entries' := by
  have hnodup' : (entries'.map (·.1)).Nodup := (h.map _).nodup_iff.mp hnodup
  exact eq_of_perm ((perm_ofList hnodup).trans (h.trans (perm_ofList hnodup').symm))

/-- Settings are made of their entries. -/
theorem ofList_entries (s : Settings) : ofList s.entries = s :=
  eq_of_perm (perm_ofList s.nodup_names)

end ContainerAudit.Settings
