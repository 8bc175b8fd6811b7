import ContainerAudit.Check.Privilege
import ContainerAudit.Proofs.Check.Finding
import ContainerAudit.Proofs.Live.Capability

/-!
# What is found about capabilities

A live set is a word of bits and a declared set a list of names, in which names may occur twice and
need not be those of capabilities.  The check finds exactly the capabilities that the kernel knows
and on which the two disagree, each once, so it holds exactly if the low bits of each word are those
of the names.

## Key results

- `capabilities_eq_map`: what is found, from the pairs of a set and a capability that disagree
- `mem_disagreements`, `pairwise_disagreements`: which pairs these are, and in which order
- `capabilities_ordered_disagreements`: all this, and what it means that nothing is found
-/

namespace ContainerAudit.Check

/-- The live set holds a capability otherwise than it is declared. -/
def Disagree (declared : CapabilityNames) (live : HeldCapabilities) (set : CapabilitySet)
    (c : Capability) : Prop :=
  ¬((live.mask set).toNat.testBit c.val = true ↔ c.name ∈ declared.inSet set)

instance (declared : CapabilityNames) (live : HeldCapabilities) (set : CapabilitySet)
    (c : Capability) : Decidable (Disagree declared live set c) :=
  inferInstanceAs (Decidable (¬_))

/-- The order in which the pairs of a set and a capability are reported. -/
def Precedes (a b : CapabilitySet × Capability) : Prop :=
  CapabilitySet.all.idxOf a.1 < CapabilitySet.all.idxOf b.1 ∨ a.1 = b.1 ∧ a.2 < b.2

/-- What is found about a capability on which a set disagrees. -/
def disagreement (declared : CapabilityNames) : CapabilitySet × Capability → Finding
  | (set, c) =>
    if c.name ∈ declared.inSet set then
      .violation s!"expected capability {c.name} in {set.name} set but it is missing"
    else .violation s!"unexpected capability {c.name} present in {set.name} set"

/-! ## The pairs that disagree -/

/-- The pairs of a set and a known capability that disagree. -/
def disagreements (declared : CapabilityNames) (live : HeldCapabilities) :
    List (CapabilitySet × Capability) :=
  CapabilitySet.all.flatMap fun set =>
    ((Capability.upTo live.lastCap.toNat).filter (Disagree declared live set)).map (set, ·)

/-- The kernel may know capabilities that have no name. -/
theorem mem_disagreements {declared : CapabilityNames} {live : HeldCapabilities}
    {set : CapabilitySet} {c : Capability} :
    (set, c) ∈ disagreements declared live ↔
      c.val ≤ min live.lastCap.toNat 40 ∧ Disagree declared live set c := by
  -- No capability has a number above 40, so the smaller bound changes nothing.
  have hknown : c.val ≤ min live.lastCap.toNat 40 ↔ c.val ≤ live.lastCap.toNat := by
    have hlt := c.isLt
    omega
  rw [hknown, disagreements, List.mem_flatMap]
  constructor
  · rintro ⟨set', -, hmem⟩
    obtain ⟨c', hc', heq⟩ := List.mem_map.mp hmem
    obtain ⟨rfl, rfl⟩ := Prod.mk.inj heq
    obtain ⟨hupTo, hdisagree⟩ := List.mem_filter.mp hc'
    exact ⟨Capability.mem_upTo.mp hupTo, by simpa using hdisagree⟩
  · rintro ⟨hle, hdisagree⟩
    have hfilter : c ∈ (Capability.upTo live.lastCap.toNat).filter (Disagree declared live set) :=
      List.mem_filter.mpr ⟨Capability.mem_upTo.mpr hle, by simpa using hdisagree⟩
    exact ⟨set, CapabilitySet.mem_all set, List.mem_map_of_mem hfilter⟩

/-- The disagreements are in order, so none of them is listed twice. -/
theorem pairwise_disagreements (declared : CapabilityNames) (live : HeldCapabilities) :
    (disagreements declared live).Pairwise Precedes := by
  rw [disagreements, List.pairwise_flatMap]
  constructor
  · -- In one set the capabilities stand by their numbers.
    intro set _
    rw [List.pairwise_map]
    exact ((Capability.pairwise_upTo _).filter _).imp fun hlt => .inr ⟨rfl, hlt⟩
  · -- Between two sets their order decides, whatever the capabilities are.
    refine CapabilitySet.pairwise_all.imp fun hlt a ha b hb => .inl ?_
    obtain ⟨c, -, rfl⟩ := List.mem_map.mp ha
    obtain ⟨c', -, rfl⟩ := List.mem_map.mp hb
    exact hlt

/-! ## The findings -/

/-- Something is found about one capability in one set exactly if the two disagree. -/
private theorem capabilityFindings_eq (declared : CapabilityNames) (live : HeldCapabilities)
    (set : CapabilitySet) (c : Capability) :
    capabilityFindings (declared.inSet set) live set c =
      if Disagree declared live set c then [disagreement declared (set, c)] else [] := by
  unfold capabilityFindings Disagree disagreement
  rw [HeldCapabilities.has_eq_testBit, List.contains_eq_mem]
  by_cases hname : c.name ∈ declared.inSet set
  · by_cases hbit : (live.mask set).toNat.testBit c.val = true <;>
      simp [hname, hbit, Findings.ensure]
  · by_cases hbit : (live.mask set).toNat.testBit c.val = true <;>
      simp [hname, hbit, Findings.ensure]

/-- The check finds the pairs that disagree, in their order. -/
theorem capabilities_eq_map {d : Document} {p : Process} {s : System} {live : HeldCapabilities}
    (hprocess : d.process = some p) (hlive : s.ask .capabilities = .ok live) :
    capabilities d s = conclude
      ((disagreements (p.capabilities.getD {}) live).map
        (disagreement (p.capabilities.getD {}))) := by
  have hquery := System.query_of_ok hlive "capability sets"
  -- In one set, the findings are those about the capabilities left by the filter.
  have hset (set : CapabilitySet) (cs : List Capability) :
      cs.flatMap (capabilityFindings ((p.capabilities.getD {}).inSet set) live set) =
        ((cs.filter (Disagree (p.capabilities.getD {}) live set)).map (set, ·)).map
          (disagreement (p.capabilities.getD {})) := by
    induction cs with
    | nil => rfl
    | cons c rest ih =>
      rw [List.flatMap_cons, ih, capabilityFindings_eq, List.filter_cons]
      by_cases hdisagree : Disagree (p.capabilities.getD {}) live set c <;> simp [hdisagree]
  simp only [capabilities, hprocess, hquery, liftM_ok, Findings.ok_bind]
  rw [disagreements, List.map_flatMap]
  exact congrArg conclude (List.flatMap_congr fun set _ => hset set _)

/-- What is found about capabilities is one violation for each pair of a set and a capability known
    to the kernel in which bit and declaration differ, by sets and then by numbers.  The check holds
    exactly if the known bits of each word are those of the declared names. -/
theorem capabilities_ordered_disagreements {d : Document} {p : Process} {s : System}
    {live : HeldCapabilities} (hprocess : d.process = some p)
    (hlive : s.ask .capabilities = .ok live) :
    let declared := p.capabilities.getD {}
    let last := min live.lastCap.toNat 40
    (∃ pairs : List (CapabilitySet × Capability),
        pairs.Pairwise Precedes ∧
        (∀ set c, (set, c) ∈ pairs ↔ c.val ≤ last ∧ Disagree declared live set c) ∧
        capabilities d s = conclude (pairs.map (disagreement declared))) ∧
      (capabilities d s = .ok () ↔
        ∀ set, (live.mask set).toNat % 2 ^ (last + 1) =
          Capability.namedMask last (declared.inSet set)) := by
  intro declared last
  have hlast : last < 41 := by omega
  have hfound := capabilities_eq_map hprocess hlive
  refine ⟨⟨disagreements declared live, pairwise_disagreements declared live,
    fun set c => mem_disagreements, hfound⟩, ?_⟩
  -- The check holds if no pair disagrees, which set by set is an equation of words.
  rw [hfound, conclude_eq_ok_iff, List.map_eq_nil_iff, List.eq_nil_iff_forall_not_mem, Prod.forall]
  refine forall_congr' fun set => ?_
  rw [Capability.mod_eq_namedMask_iff hlast]
  refine forall_congr' fun c => ?_
  rw [mem_disagreements, not_and, Disagree, not_not]

/-- What is found where a name is declared twice, another is that of no capability and the kernel
    sets bits that it does not know. -/
theorem capabilities_repeatedName :
    let declared : CapabilityNames := { bounding := ["CAP_CHOWN", "CAP_CHOWN", "CAP_TELEPORT"] }
    let live : HeldCapabilities :=
      ((HeldCapabilities.empty 5).setMask .bounding 0x8000000000000042).setMask .ambient 0x20
    let p : Process := { capabilities := some declared }
    let d : Document := { process := some p }
    let s : System :=
      { host := .linux, uid := 0, gid := 0, env := fun _ => none
        ask := fun
          | .capabilities => .ok live
          | _ => .error (.ofErrno .denied) }
    (d.process = some p ∧ s.ask .capabilities = .ok live) ∧
      (∃ pairs : List (CapabilitySet × Capability),
        pairs.Pairwise Precedes ∧
          (∀ set c, (set, c) ∈ pairs ↔ c.val ≤ 5 ∧ Disagree declared live set c) ∧
          capabilities d s = conclude (pairs.map (disagreement declared))) ∧
      capabilities d s ≠ .ok () := by
  intro declared live p d s
  have hprocess : d.process = some p := rfl
  have hlive : s.ask .capabilities = .ok live := rfl
  obtain ⟨hpairs, hnil⟩ := capabilities_ordered_disagreements hprocess hlive
  refine ⟨⟨hprocess, hlive⟩, hpairs, fun h => ?_⟩
  -- The ambient set holds a known capability that is not declared.
  have hambient := hnil.mp h .ambient
  exact absurd hambient (by decide +kernel)

end ContainerAudit.Check
