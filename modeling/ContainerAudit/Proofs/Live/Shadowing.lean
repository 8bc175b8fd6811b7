import ContainerAudit.Live.Mount
import Mathlib.Data.List.Induction

/-!
# Active mountpoints

The table lists mounts from the oldest to the newest.  `MountTable.Active` says when a path is an
active mountpoint; `MountTable.isActive` decides it from the newest record backwards.  The proofs
go the other way: `isActive_concat` says what one more mount does to a path, and all else follows
by induction over the mounts in the order in which they were made.

## Key results

- `isActive_concat`: a mount activates its own path, shadows what is below it, and leaves the rest
- `isActive_iff`: `isActive` decides `Active`
- `isActive_append_cons`: a path stays active after its last mount unless one is made above it
- `isActive_append`: a table that goes on is scanned on from where the older mounts left off
- `isActive_iff_scan`: the search from the end agrees with one pass from the oldest mount on
-/

namespace ContainerAudit.MountTable

open ContainerAudit.Path (canonical isProperAncestor)

/-- Something is mounted at a path, and since the last time nothing was mounted above it. -/
def Active (table : MountTable) (path : String) : Prop :=
  ∃ older r newer, table = older ++ r :: newer ∧ canonical r.mountpoint = path ∧
    ∀ r' ∈ newer, canonical r'.mountpoint ≠ path ∧
      isProperAncestor (canonical r'.mountpoint) path = false

private theorem isActive_nil (path : String) : isActive [] path = false := rfl

/-- What one more mount does to a path. -/
theorem isActive_concat (table : MountTable) (r : LiveMount) (path : String) :
    isActive (table ++ [r]) path =
      if canonical r.mountpoint = path then true
      else !isProperAncestor (canonical r.mountpoint) path && isActive table path := by
  unfold isActive
  rw [List.reverse_append, List.reverse_singleton, List.singleton_append]
  split
  · rename_i hat
    simp [hat]
  · rename_i hat
    simp [hat, Bool.and_left_comm]

/-- Likewise for the description of active mountpoints. -/
private theorem active_concat (table : MountTable) (r : LiveMount) (path : String) :
    Active (table ++ [r]) path ↔
      canonical r.mountpoint = path ∨
        isProperAncestor (canonical r.mountpoint) path = false ∧ Active table path := by
  constructor
  · rintro ⟨older, r₀, newer, heq, hat, hnewer⟩
    -- The new record is either the last one at the path, or one of those after it.
    rcases List.eq_nil_or_concat newer with rfl | ⟨newer, r', rfl⟩
    · obtain ⟨-, hr⟩ := List.append_inj' heq rfl
      exact .inl ((List.singleton_inj.mp hr) ▸ hat)
    · rw [List.concat_eq_append, ← List.cons_append, ← List.append_assoc] at heq
      obtain ⟨htable, hr⟩ := List.append_inj' heq rfl
      obtain rfl := List.singleton_inj.mp hr
      exact .inr ⟨(hnewer r (by simp)).2, older, r₀, newer, htable, hat,
        fun r' hr' => hnewer r' (by simp [hr'])⟩
  · rintro (hat | ⟨habove, older, r₀, newer, rfl, hat, hnewer⟩)
    · exact ⟨table, r, [], rfl, hat, by simp⟩
    · by_cases hr : canonical r.mountpoint = path
      · exact ⟨older ++ r₀ :: newer, r, [], rfl, hr, by simp⟩
      · refine ⟨older, r₀, newer ++ [r], by simp, hat, fun r' hr' => ?_⟩
        rcases List.mem_append.mp hr' with hr' | hr'
        · exact hnewer r' hr'
        · exact List.mem_singleton.mp hr' ▸ ⟨hr, habove⟩

/-- The search from the newest record back finds out whether a path is active. -/
theorem isActive_iff (table : MountTable) (path : String) :
    isActive table path = true ↔ Active table path := by
  induction table using List.reverseRecOn with
  | nil => simp [isActive_nil, Active]
  | append_singleton table r ih =>
    rw [isActive_concat, active_concat]
    split
    · rename_i hat
      simp [hat]
    · rename_i hat
      simp [hat, ih]

instance (table : MountTable) (path : String) : Decidable (Active table path) :=
  decidable_of_iff _ (isActive_iff table path)

/-- After its last mount a path is active unless a later mount was made above it. -/
theorem isActive_append_cons (older : MountTable) {r : LiveMount} {newer : MountTable}
    {path : String} (hat : canonical r.mountpoint = path)
    (hnewer : ∀ r' ∈ newer, canonical r'.mountpoint ≠ path) :
    isActive (older ++ r :: newer) path =
      newer.all fun r' => !isProperAncestor (canonical r'.mountpoint) path := by
  induction newer using List.reverseRecOn with
  | nil => simp [isActive_concat, hat]
  | append_singleton newer r' ih =>
    have hr' : canonical r'.mountpoint ≠ path := hnewer r' (by simp)
    rw [← List.cons_append, ← List.append_assoc, isActive_concat, if_neg hr',
      ih fun r'' hr'' => hnewer r'' (by simp [hr''])]
    simp [Bool.and_comm]

/-! ## One pass over the table -/

/-- Whether a path is active after one more mount: a mount at the path activates it, one above it
    shadows it, and any other leaves it as it was. -/
def activeAfter (path : String) (active : Bool) (r : LiveMount) : Bool :=
  if canonical r.mountpoint = path then true
  else if isProperAncestor (canonical r.mountpoint) path then false
  else active

/-- Whether a path is active at the end of a pass over the table from the oldest mount to the
    newest, at the start of which it was not. -/
def scan (table : MountTable) (path : String) : Bool := table.foldl (activeAfter path) false

/-- One more mount is one more step of a pass over the table. -/
private theorem isActive_concat_eq_activeAfter (table : MountTable) (r : LiveMount)
    (path : String) :
    isActive (table ++ [r]) path = activeAfter path (isActive table path) r := by
  rw [isActive_concat, activeAfter]
  cases isProperAncestor (canonical r.mountpoint) path <;> simp

/-- A pass over newer mounts goes on from what the older ones left. -/
theorem isActive_append (older newer : MountTable) (path : String) :
    isActive (older ++ newer) path = newer.foldl (activeAfter path) (isActive older path) := by
  induction newer using List.reverseRecOn with
  | nil => simp
  | append_singleton newer r ih =>
    rw [← List.append_assoc, isActive_concat_eq_activeAfter, ih, List.foldl_append, List.foldl_cons,
      List.foldl_nil]

/-- Looking back from the newest mount for the last one at a path, and then for one above it, finds
    what a pass from the oldest mount on ends with. -/
theorem isActive_iff_scan (table : MountTable) (path : String) :
    isActive table path = true ↔ scan table path = true := by
  have hstart : isActive table path = table.foldl (activeAfter path) (isActive [] path) :=
    isActive_append [] table path
  rw [hstart, isActive_nil, scan]

end ContainerAudit.MountTable
