import ContainerAudit.Entries
import Mathlib.Data.List.Nodup

/-!
# Entries that are set one after another

Several names are set in a list of entries.  The last setting of a key decides what is found under
it, and a key that is not set keeps what it had.
-/

namespace ContainerAudit.Entries

variable {α κ β ι : Type} [DecidableEq κ]

/-- What is found after an insertion, under any key. -/
private theorem find?_insert (key : α → κ) (name : α) (value : β) (entries : List (α × β)) (k : κ) :
    find? key (insert key name value entries) k =
      if key name = k then some value else find? key entries k := by
  split
  · rename_i h
    rw [← h, find?_insert_self]
  · rename_i h
    exact find?_insert_of_ne key value entries h

/-- What is found stands in the list. -/
theorem exists_mem_of_find? {key : α → κ} {entries : List (α × β)} {k : κ} {value : β}
    (h : find? key entries k = some value) :
    ∃ entry ∈ entries, key entry.1 = k ∧ entry.2 = value := by
  obtain ⟨entry, hentry, hvalue⟩ := Option.map_eq_some_iff.mp h
  exact ⟨entry, List.mem_of_find?_eq_some hentry, by simpa using List.find?_some hentry, hvalue⟩

/-- A new entry that is taken out again leaves the others. -/
theorem erase_insert {key : α → κ} {name : α} {entries : List (α × β)} (value : β)
    (h : find? key entries (key name) = none) :
    erase key (key name) (insert key name value entries) = entries := by
  have hother : ∀ entry ∈ entries, key entry.1 ≠ key name := by
    simpa [find?] using h
  clear h
  induction entries with
  | nil => simp [insert, erase]
  | cons entry rest ih =>
    obtain ⟨hentry, hrest⟩ := List.forall_mem_cons.mp hother
    rw [insert, if_neg hentry, erase, List.filter_cons_of_pos (by simpa using hentry), ← erase,
      ih hrest]

/-- Where the keys are distinct, each entry is found under its key. -/
theorem find?_of_mem (key : α → κ) {entries : List (α × β)}
    (hdistinct : (entries.map fun entry => key entry.1).Nodup) {entry : α × β}
    (hentry : entry ∈ entries) : find? key entries (key entry.1) = some entry.2 := by
  cases hfound : entries.find? fun other => key other.1 = key entry.1 with
  | none => simpa using List.find?_eq_none.mp hfound entry hentry
  | some other =>
    have hkey : key other.1 = key entry.1 := by simpa using List.find?_some hfound
    have hmem := List.mem_of_find?_eq_some hfound
    rw [find?, hfound, List.inj_on_of_nodup_map hdistinct hmem hentry hkey]
    rfl

/-- Under each key stands what stood there before, or the value of an item with that key. -/
theorem find?_foldl_insert (key : α → κ) (name : ι → α) (value : ι → β) (items : List ι)
    (entries : List (α × β)) (k : κ) :
    let result := items.foldl (fun es i => insert key (name i) (value i) es) entries
    (find? key result k = find? key entries k ∧ ∀ i ∈ items, key (name i) ≠ k) ∨
      ∃ i ∈ items, key (name i) = k ∧ find? key result k = some (value i) := by
  induction items generalizing entries with
  | nil => exact .inl ⟨rfl, by simp⟩
  | cons first rest ih =>
    rw [List.foldl_cons]
    -- An item behind the first one replaces what the first one set.
    rcases ih (insert key (name first) (value first) entries) with ⟨hfind, hrest⟩ | ⟨i, hi, h⟩
    · rw [find?_insert] at hfind
      by_cases hfirst : key (name first) = k
      · rw [if_pos hfirst] at hfind
        exact .inr ⟨first, List.mem_cons_self, hfirst, hfind⟩
      · rw [if_neg hfirst] at hfind
        exact .inl ⟨hfind, List.forall_mem_cons.mpr ⟨hfirst, hrest⟩⟩
    · exact .inr ⟨i, List.mem_cons_of_mem _ hi, h⟩

/-- Where the keys are distinct, each item is found under its key. -/
theorem find?_foldl_insert_of_mem (key : α → κ) {name : ι → α} {value : ι → β} {items : List ι}
    (entries : List (α × β)) (hdistinct : (items.map fun i => key (name i)).Nodup) {i : ι}
    (hi : i ∈ items) :
    find? key (items.foldl (fun es i => insert key (name i) (value i) es) entries)
      (key (name i)) = some (value i) := by
  rcases find?_foldl_insert key name value items entries (key (name i)) with
    ⟨-, hnone⟩ | ⟨j, hj, hkey, hfind⟩
  · exact absurd rfl (hnone i hi)
  · rw [List.inj_on_of_nodup_map hdistinct hj hi hkey] at hfind
    exact hfind

end ContainerAudit.Entries
