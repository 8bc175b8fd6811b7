import ContainerAudit.Live.Capability
import Mathlib.Data.Fintype.Basic
import Mathlib.Data.List.FinRange
import Mathlib.Data.Nat.Bitwise

/-!
# Capability sets as sets

The word of a capability set holds capability number `n` in its bit `n`.  With that reading,
putting a capability into a set changes one bit of one word.  Names and numbers of capabilities
determine each other.

## Key results

- `has_eq_getLsbD`: a set holds the capabilities whose bits are one
- `testBit_mask_set`, `has_set`: what a set holds after one capability was put in or taken out
- `ofName?_eq_some_iff`: the capability with a name is the one that has it
- `mod_eq_namedMask_iff`: a word is that of names exactly if each capability is in both or in
  neither
-/

namespace ContainerAudit

namespace Capability

/-- The word of one capability has its bit alone. -/
private theorem toBitVec_bit : ∀ c : Capability, c.bit.toBitVec = BitVec.twoPow 64 c.val := by
  decide

/-- That word is not zero: the number of a capability is below 64. -/
private theorem twoPow_ne_zero : ∀ c : Capability, BitVec.twoPow 64 c.val ≠ 0#64 := by
  decide

theorem name_injective : Function.Injective name := by
  decide +kernel

/-- A name is looked up as the capability that has it. -/
theorem ofName?_eq_some_iff {n : String} {c : Capability} :
    ofName? n = some c ↔ c.name = n := by
  constructor
  · intro h
    simpa using List.find?_some h
  · rintro rfl
    -- The search ends at a capability with that name, and there is only one.
    cases hfound : ofName? c.name with
    | none => simpa using List.find?_eq_none.mp hfound c (List.mem_finRange c)
    | some c' =>
      have hname : c'.name = c.name := by simpa using List.find?_some hfound
      rw [name_injective hname]

theorem mem_upTo {last : Nat} {c : Capability} : c ∈ upTo last ↔ c.val ≤ last := by
  simp [upTo]

theorem pairwise_upTo (last : Nat) : (upTo last).Pairwise (· < ·) :=
  (List.pairwise_lt_finRange 41).filter _

/-! ## Words of names -/

/-- The word of the capabilities up to a number that have one of several names.  Names that no
    capability has do not count, and a name that occurs twice counts once. -/
def namedMask (last : Nat) (names : List String) : Nat :=
  ((names.filterMap ofName?).filter (·.val ≤ last)).foldl (fun mask c => mask ||| 2 ^ c.val) 0

/-- A bit of a union of capabilities is that of one of them. -/
private theorem testBit_foldl_or (cs : List Capability) (mask n : Nat) :
    (cs.foldl (fun mask c => mask ||| 2 ^ c.val) mask).testBit n = true ↔
      mask.testBit n = true ∨ ∃ c ∈ cs, c.val = n := by
  induction cs generalizing mask with
  | nil => simp
  | cons c rest ih =>
    rw [List.foldl_cons, ih, Nat.testBit_or, Bool.or_eq_true, Nat.testBit_two_pow,
      decide_eq_true_eq, List.exists_mem_cons_iff, or_assoc]

/-- A bit of the word of names is that of a capability up to the last one that is named. -/
private theorem testBit_namedMask {last : Nat} {names : List String} {n : Nat} :
    (namedMask last names).testBit n = true ↔
      ∃ c : Capability, c.val = n ∧ c.val ≤ last ∧ c.name ∈ names := by
  have hnamed (c : Capability) : c ∈ names.filterMap ofName? ↔ c.name ∈ names := by
    simp [List.mem_filterMap, ofName?_eq_some_iff]
  rw [namedMask, testBit_foldl_or]
  -- Nothing is in the word to begin with.
  constructor
  · rintro (hzero | ⟨c, hc, hn⟩)
    · simp at hzero
    · obtain ⟨hmem, hle⟩ := List.mem_filter.mp hc
      exact ⟨c, hn, by simpa using hle, (hnamed c).mp hmem⟩
  · rintro ⟨c, hn, hle, hname⟩
    exact .inr ⟨c, List.mem_filter.mpr ⟨(hnamed c).mpr hname, by simpa using hle⟩, hn⟩

/-- The low bits of a word are those of names exactly if each capability that has one of these bits
    is in the word and among the names, or in neither. -/
theorem mod_eq_namedMask_iff {word last : Nat} {names : List String} (hlast : last < 41) :
    word % 2 ^ (last + 1) = namedMask last names ↔
      ∀ c : Capability, c.val ≤ last → (word.testBit c.val = true ↔ c.name ∈ names) := by
  have hlow (n : Nat) : (word % 2 ^ (last + 1)).testBit n = true ↔
      n ≤ last ∧ word.testBit n = true := by
    rw [Nat.testBit_mod_two_pow, Bool.and_eq_true, decide_eq_true_eq, Nat.lt_succ_iff]
  constructor
  · intro h c hle
    have hbit := hlow c.val
    rw [h, testBit_namedMask] at hbit
    constructor
    · intro htest
      obtain ⟨c', hval, -, hname⟩ := hbit.mpr ⟨hle, htest⟩
      rwa [← Fin.ext hval]
    · intro hname
      exact (hbit.mp ⟨c, rfl, hle, hname⟩).2
  · intro h
    refine Nat.eq_of_testBit_eq fun n => Bool.eq_iff_iff.mpr ?_
    rw [hlow, testBit_namedMask]
    -- A bit above `last` is on neither side; any other one is that of a capability.
    constructor
    · rintro ⟨hle, htest⟩
      have hlt : n < 41 := by omega
      exact ⟨⟨n, hlt⟩, rfl, hle, (h ⟨n, hlt⟩ hle).mp htest⟩
    · rintro ⟨c, rfl, hle, hname⟩
      exact ⟨hle, (h c hle).mpr hname⟩

end Capability

namespace CapabilitySet

/-- Every set is reported. -/
theorem mem_all (set : CapabilitySet) : set ∈ all := by
  cases set <;> decide

/-- No set is reported twice. -/
theorem pairwise_all : all.Pairwise fun a b => all.idxOf a < all.idxOf b := by
  decide

/-- No two sets share a word. -/
theorem index_injective : Function.Injective index := by
  intro a b
  cases a <;> cases b <;> decide

/-- Each word belongs to a set. -/
private theorem index_surjective : Function.Surjective index
  | 0 => ⟨bounding, rfl⟩
  | 1 => ⟨effective, rfl⟩
  | 2 => ⟨inheritable, rfl⟩
  | 3 => ⟨permitted, rfl⟩
  | 4 => ⟨ambient, rfl⟩

end CapabilitySet

namespace HeldCapabilities

/-- Replacing the word of a set leaves the words of the others as they are. -/
theorem mask_setMask (s : HeldCapabilities) (a b : CapabilitySet) (m : UInt64) :
    (s.setMask a m).mask b = if a = b then m else s.mask b := by
  by_cases h : a = b
  · subst h
    simp [mask, setMask]
  · have hindex : a.index ≠ b.index := fun heq => h (CapabilitySet.index_injective heq)
    rw [if_neg h]
    exact Vector.getElem_set_ne a.index.isLt b.index.isLt fun heq => hindex (Fin.ext heq)

/-- The capability sets of a process are its words and the number of the last capability. -/
theorem ext_mask {s t : HeldCapabilities} (hlast : s.lastCap = t.lastCap)
    (h : ∀ set, s.mask set = t.mask set) : s = t := by
  have hmasks : s.masks = t.masks := by
    ext i hi
    obtain ⟨set, hset⟩ := CapabilitySet.index_surjective ⟨i, hi⟩
    have hword := h set
    simpa [mask, hset] using congrArg UInt64.toNat hword
  obtain ⟨masks, last⟩ := s
  obtain ⟨masks', last'⟩ := t
  simp only at hlast hmasks
  rw [hlast, hmasks]

@[simp]
theorem mask_empty (last : UInt32) (a : CapabilitySet) : (empty last).mask a = 0 := by
  simp [mask, empty]

/-- A set holds a capability if its word has the bit of the capability. -/
theorem has_eq_getLsbD (s : HeldCapabilities) (a : CapabilitySet) (c : Capability) :
    s.has a c = (s.mask a).toBitVec.getLsbD c.val := by
  -- A word is masked down to one bit, so what is left is zero or the word of that bit.
  have hzero : (s.mask a &&& c.bit = 0) ↔ (s.mask a).toBitVec.getLsbD c.val = false := by
    rw [← UInt64.toBitVec_inj, UInt64.toBitVec_and, Capability.toBitVec_bit, BitVec.and_twoPow]
    cases (s.mask a).toBitVec.getLsbD c.val with
    | true => simpa using Capability.twoPow_ne_zero c
    | false => simp
  unfold has
  rw [Bool.eq_iff_iff, bne_iff_ne, ne_eq, hzero, Bool.not_eq_false]

/-- Likewise for the number that a word stands for. -/
theorem has_eq_testBit (s : HeldCapabilities) (a : CapabilitySet) (c : Capability) :
    s.has a c = (s.mask a).toNat.testBit c.val := by
  rw [has_eq_getLsbD, ← BitVec.testBit_toNat]
  rfl

/-- One bit of one word changes, and it is that of the capability. -/
theorem testBit_mask_set (s : HeldCapabilities) (a b : CapabilitySet) (c : Capability)
    (present : Bool) (position : Nat) :
    ((s.set a c present).mask b).toNat.testBit position =
      if a = b ∧ c.val = position then present else (s.mask b).toNat.testBit position := by
  rw [HeldCapabilities.set, mask_setMask]
  by_cases hset : a = b
  · -- In the word of the set itself, all but the bit of the capability is kept.
    subst hset
    have hlt := c.isLt
    have hbit : c.bit.toBitVec.getLsbD position = decide (c.val = position) := by
      rw [Capability.toBitVec_bit, BitVec.getLsbD_twoPow]
      by_cases h : c.val = position
      · have hlt' : c.val < 64 := by omega
        simp [h, h ▸ hlt']
      · simp [h]
    simp only [if_true, true_and, ← UInt64.toNat_toBitVec, BitVec.testBit_toNat]
    cases present with
    | true =>
      simp only [if_true, UInt64.toBitVec_or, BitVec.getLsbD_or, hbit]
      by_cases h : c.val = position <;> simp [h]
    | false =>
      simp only [Bool.false_eq_true, if_false, UInt64.toBitVec_and, UInt64.toBitVec_not,
        BitVec.getLsbD_and, BitVec.getLsbD_not, hbit]
      by_cases h : c.val = position
      · simp [h]
      · -- Above the word there are no bits to keep.
        by_cases hposition : position < 64
        · simp [h, hposition]
        · simp [h, BitVec.getLsbD_of_ge _ _ (Nat.le_of_not_lt hposition)]
  · simp [hset]

/-- Putting a capability into a set or taking it out changes nothing else that is held. -/
theorem has_set (s : HeldCapabilities) (a b : CapabilitySet) (c c' : Capability)
    (present : Bool) :
    (s.set a c present).has b c' = if a = b ∧ c = c' then present else s.has b c' := by
  simp only [has_eq_testBit, testBit_mask_set, Fin.ext_iff]

theorem has_empty (last : UInt32) (a : CapabilitySet) (c : Capability) :
    (empty last).has a c = false := by
  simp [has_eq_getLsbD]

end HeldCapabilities

end ContainerAudit
