/-!
# Settings by name

A document gives kernel parameters as a map from names to values.  `Settings` keeps its entries
in ascending order of the names, each name once, so that two maps with the same entries are
equal and a walk over a map has one order.
-/

namespace ContainerAudit

/-- Entries in ascending order of their names. -/
structure Settings where
  entries : List (String × String)
  sorted : entries.Pairwise fun a b => a.1 < b.1

namespace Settings

theorem ext_entries {a b : Settings} (h : a.entries = b.entries) : a = b := by
  cases a; cases b; cases h; rfl

instance : DecidableEq Settings := fun a b =>
  if h : a.entries = b.entries then isTrue (ext_entries h)
  else isFalse fun heq => h (congrArg entries heq)

/-- A name has one entry. -/
theorem nodup_names (s : Settings) : (s.entries.map (·.1)).Nodup := by
  refine List.pairwise_map.mpr (s.sorted.imp fun {a b} hlt heq => ?_)
  rw [heq] at hlt
  exact String.lt_irrefl _ hlt

/-- No settings. -/
def empty : Settings := ⟨[], .nil⟩

/-- Sets a name in a list of entries. -/
def insertEntry (name value : String) : List (String × String) → List (String × String)
  | [] => [(name, value)]
  | entry :: rest =>
    if name < entry.1 then (name, value) :: entry :: rest
    else if name = entry.1 then (name, value) :: rest
    else entry :: insertEntry name value rest

/-- An entry after an insertion is the new one or one of those before. -/
private theorem mem_insertEntry {name value : String} {entry : String × String} :
    ∀ {entries : List (String × String)}, entry ∈ insertEntry name value entries →
      entry = (name, value) ∨ entry ∈ entries
  | [], h => by simpa [insertEntry] using h
  | first :: rest, h => by
    simp only [insertEntry] at h
    -- The new entry comes in front of the first one, takes its place or goes further down.
    split at h
    · simpa using h
    · split at h
      · rcases List.mem_cons.mp h with h | h
        · exact .inl h
        · exact .inr (List.mem_cons_of_mem _ h)
      · rcases List.mem_cons.mp h with h | h
        · exact .inr (h ▸ List.mem_cons_self)
        · rcases mem_insertEntry h with h | h
          · exact .inl h
          · exact .inr (List.mem_cons_of_mem _ h)

/-- Of two different names one comes first. -/
private theorem lt_of_not_lt_of_ne {a b : String} (h : ¬a < b) (hne : a ≠ b) : b < a := by
  apply Decidable.byContradiction
  intro h'
  exact hne (String.le_antisymm (String.not_lt.mp h') (String.not_lt.mp h))

/-- Inserting an entry keeps the names in order. -/
private theorem sorted_insertEntry (name value : String) :
    ∀ {entries : List (String × String)}, entries.Pairwise (fun a b => a.1 < b.1) →
      (insertEntry name value entries).Pairwise fun a b => a.1 < b.1
  | [], _ => by simp [insertEntry]
  | first :: rest, h => by
    obtain ⟨hfirst, hrest⟩ := List.pairwise_cons.mp h
    simp only [insertEntry]
    split
    · rename_i hlt
      refine List.pairwise_cons.mpr ⟨fun entry he => ?_, h⟩
      rcases List.mem_cons.mp he with rfl | he
      · exact hlt
      · exact String.lt_trans hlt (hfirst entry he)
    · split
      · rename_i heq
        exact List.pairwise_cons.mpr ⟨fun entry he => by simpa [heq] using hfirst entry he, hrest⟩
      · -- What follows the first entry is the new one or was there before.
        rename_i hlt hne
        refine List.pairwise_cons.mpr ⟨fun entry he => ?_, sorted_insertEntry name value hrest⟩
        rcases mem_insertEntry he with rfl | he
        · exact lt_of_not_lt_of_ne hlt hne
        · exact hfirst _ he

/-- Sets a name; a value that it had before is replaced. -/
def insert (s : Settings) (name value : String) : Settings :=
  ⟨insertEntry name value s.entries, sorted_insertEntry name value s.sorted⟩

/-- The settings of a list of entries, of which a later one replaces an earlier one with the
    same name. -/
def ofList (entries : List (String × String)) : Settings :=
  entries.foldl (fun s (name, value) => s.insert name value) empty

end Settings

end ContainerAudit
