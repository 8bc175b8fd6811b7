import ContainerAudit.Proofs.Live.Capability

/-!
# Capability sets as a store of bits

The capability sets of a process change in two ways: one capability is put into a set or taken out,
or the whole word of a set is replaced.  Either way some bits of one word are written.  For a single
bit a run of changes is thus a list of writes, of which the last one counts.

The induction is on the run from its end: the last change wrote the bit, or it left the bit as the
changes before it did.

## Key results

- `testBit_update`: each bit after a change is what was written there, or as before
- `testBit_run`: each bit after a run is what was written there last, or as at the start
- `run_lastWritten`: what the sets hold after a run, and what a run leaves as it was
-/

namespace ContainerAudit

/-- A change of the capability sets of a process. -/
inductive CapabilityUpdate where
  /-- A capability is put into a set, or taken out. -/
  | one (set : CapabilitySet) (c : Capability) (present : Bool)
  /-- The word of a set is replaced. -/
  | word (set : CapabilitySet) (mask : UInt64)

namespace CapabilityUpdate

/-- The set that changes. -/
def set : CapabilityUpdate → CapabilitySet
  | one set _ _ | word set _ => set

/-- What is written at a position of a set's word, if anything is. -/
def written? (a : CapabilitySet) (position : Nat) : CapabilityUpdate → Option Bool
  | one set c present => if set = a ∧ c.val = position then some present else none
  | word set mask => if set = a then some (mask.toNat.testBit position) else none

/-- What is written last at a position of a set's word, if anything is. -/
def lastWritten? (updates : List CapabilityUpdate) (a : CapabilitySet) (position : Nat) :
    Option Bool :=
  updates.reverse.findSome? (written? a position)

/-- A change of another set writes nothing. -/
private theorem written?_of_ne {update : CapabilityUpdate} {a : CapabilitySet} (h : update.set ≠ a)
    (position : Nat) : update.written? a position = none := by
  cases update with
  | one set c present => exact if_neg fun heq => h heq.1
  | word set mask => exact if_neg h

/-- The last change decides if it writes at the position. -/
private theorem lastWritten?_concat (updates : List CapabilityUpdate) (last : CapabilityUpdate)
    (a : CapabilitySet) (position : Nat) :
    lastWritten? (updates ++ [last]) a position =
      (last.written? a position).or (lastWritten? updates a position) := by
  rw [lastWritten?, List.reverse_concat, List.findSome?_cons, lastWritten?]
  cases last.written? a position <;> rfl

/-- Nothing is written last where no change writes. -/
private theorem lastWritten?_eq_none {updates : List CapabilityUpdate} {a : CapabilitySet}
    {position : Nat}
    (h : ∀ update ∈ updates, update.written? a position = none) :
    lastWritten? updates a position = none := by
  rw [lastWritten?, List.findSome?_eq_none_iff]
  intro update hupdate
  exact h update (List.mem_reverse.mp hupdate)

end CapabilityUpdate

namespace HeldCapabilities

open CapabilityUpdate (lastWritten? lastWritten?_concat lastWritten?_eq_none written?_of_ne)

/-- The sets after a change. -/
def update (s : HeldCapabilities) : CapabilityUpdate → HeldCapabilities
  | .one set c present => s.set set c present
  | .word set mask => s.setMask set mask

/-- The sets after changes, one after another. -/
def run (s : HeldCapabilities) (updates : List CapabilityUpdate) : HeldCapabilities :=
  updates.foldl update s

variable (s : HeldCapabilities) (updates : List CapabilityUpdate)

/-- A run with one change more makes that change at the end. -/
private theorem run_concat (last : CapabilityUpdate) :
    s.run (updates ++ [last]) = (s.run updates).update last := by
  rw [run, List.foldl_append, List.foldl_cons, List.foldl_nil, run]

/-- Each bit after a change is what the change wrote there, or as it was. -/
theorem testBit_update (change : CapabilityUpdate) (a : CapabilitySet) (position : Nat) :
    ((s.update change).mask a).toNat.testBit position =
      (change.written? a position).getD ((s.mask a).toNat.testBit position) := by
  cases change with
  | one set c present =>
    show ((s.set set c present).mask a).toNat.testBit position = _
    rw [testBit_mask_set, CapabilityUpdate.written?]
    split <;> rfl
  | word set mask =>
    show ((s.setMask set mask).mask a).toNat.testBit position = _
    rw [mask_setMask, CapabilityUpdate.written?]
    split <;> rfl

/-- Each bit after a run is what was written there last, or as it was at the start. -/
theorem testBit_run (a : CapabilitySet) (position : Nat) :
    ((s.run updates).mask a).toNat.testBit position =
      (lastWritten? updates a position).getD ((s.mask a).toNat.testBit position) := by
  induction updates using List.reverseRecOn with
  | nil => rfl
  | append_singleton updates last ih =>
    rw [run_concat, testBit_update, lastWritten?_concat, ih]
    cases last.written? a position <;> rfl

/-- No change concerns the number of the last capability. -/
private theorem lastCap_run : (s.run updates).lastCap = s.lastCap := by
  induction updates using List.reverseRecOn with
  | nil => rfl
  | append_singleton updates last ih =>
    rw [run_concat, ← ih]
    cases last <;> rfl

/-- After a run a set holds a capability as the last change says that wrote its bit, or as before if
    none did.  A set that no change concerns keeps its word, and a set that changes keeps each bit
    that was not written, also where no capability has a name.  The number of the last capability
    stays. -/
theorem run_lastWritten :
    (∀ a c, (s.run updates).has a c = (lastWritten? updates a c.val).getD (s.has a c)) ∧
      (∀ a, (∀ update ∈ updates, update.set ≠ a) → (s.run updates).mask a = s.mask a) ∧
      (∀ a position, (∀ update ∈ updates, update.written? a position = none) →
        ((s.run updates).mask a).toNat.testBit position =
          (s.mask a).toNat.testBit position) ∧
      (s.run updates).lastCap = s.lastCap := by
  -- What is not written is kept, for a single bit first and then for whole words.
  have hkept : ∀ a position, (∀ update ∈ updates, update.written? a position = none) →
      ((s.run updates).mask a).toNat.testBit position = (s.mask a).toNat.testBit position := by
    intro a position h
    rw [testBit_run, lastWritten?_eq_none h]
    rfl
  refine ⟨fun a c => ?_, fun a h => ?_, hkept, lastCap_run s updates⟩
  · rw [has_eq_testBit, has_eq_testBit, testBit_run]
  · -- A word is as before if each of its bits is.
    apply UInt64.toNat_inj.mp
    apply Nat.eq_of_testBit_eq
    intro position
    exact hkept a position fun update hupdate => written?_of_ne (h update hupdate) position

/-- A run that writes one bit twice and one word twice, over a word with an unnamed bit. -/
theorem run_mixed :
    let s : HeldCapabilities := (empty 40).setMask .effective 0x8000000000000002
    let chown : Capability := 0
    let kill : Capability := 5
    let updates : List CapabilityUpdate := [.one .effective kill true, .word .ambient 0x21,
      .one .ambient kill false, .one .effective chown true, .one .effective kill false,
      .word .permitted 0x1, .word .permitted 0x20]
    (s.run updates).has .effective chown = true ∧ (s.run updates).has .effective kill = false ∧
      (s.run updates).has .ambient chown = true ∧ (s.run updates).has .permitted kill = true ∧
      ((∀ update ∈ updates, update.set ≠ .bounding) ∧
        (s.run updates).mask .bounding = s.mask .bounding) ∧
      ((∀ update ∈ updates, update.written? .effective 63 = none) ∧
        ((s.run updates).mask .effective).toNat.testBit 63 = true) := by
  intro s chown kill updates
  obtain ⟨hhas, hword, hbit, -⟩ := run_lastWritten s updates
  have hset : ∀ update ∈ updates, update.set ≠ .bounding := by decide
  have hwritten : ∀ update ∈ updates, update.written? .effective 63 = none := by decide
  refine ⟨?_, ?_, ?_, ?_, ⟨hset, hword .bounding hset⟩, ⟨hwritten, ?_⟩⟩
  · rw [hhas]
    decide
  · rw [hhas]
    decide
  · rw [hhas]
    decide
  · rw [hhas]
    decide
  · rw [hbit .effective 63 hwritten]
    decide

end HeldCapabilities

end ContainerAudit
