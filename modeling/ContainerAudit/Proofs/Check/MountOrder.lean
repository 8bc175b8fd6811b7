import ContainerAudit.Check.Mounts
import ContainerAudit.Proofs.Check.Finding
import ContainerAudit.Proofs.Live.Shadowing
import ContainerAudit.Replica.Basic

/-!
# The order of nested mounts

The check of the mount order looks at one pair of declared mounts: the least pair of positions, in
lexicographic order, of which the first mount is above the second.  Here the search for that pair
is shown to be exact, and with it what the check finds for any table of mounts.

A runtime that makes the declared mounts in their order does not always pass.  A third mount that
was declared later may lie above one of the pair and shadow it, which the check takes for a
mistake.  `mountOrder_eq_ok_iff_of_map_eq` says exactly when.

## Key results

- `nestedPair?_eq_some_iff`, `nestedPair?_eq_none_iff`: the search finds the least pair if any
- `mountOrder_of_flat`, `mountOrder_of_isLeastNested`: what the check finds
- `mountOrder_eq_ok_iff_of_map_eq`: when a table with the declared mounts at its end passes
-/

namespace ContainerAudit.Check

open ContainerAudit.Path (canonical isProperAncestor)

/-! ## The least nested pair -/

/-- The path at the position `a` is a strict ancestor of the path at the position `b`. -/
def IsNested (paths : List String) (a b : Nat) : Prop :=
  ∃ outer inner, paths[a]? = some outer ∧ paths[b]? = some inner ∧
    isProperAncestor outer inner = true

/-- The least nested pair in lexicographic order. -/
def IsLeastNested (paths : List String) (a b : Nat) : Prop :=
  IsNested paths a b ∧ ∀ i j, IsNested paths i j → a < i ∨ a = i ∧ b ≤ j

/-- There is only one least pair. -/
theorem IsLeastNested.unique {paths : List String} {a b a' b' : Nat}
    (h : IsLeastNested paths a b) (h' : IsLeastNested paths a' b') : a = a' ∧ b = b' := by
  have hle := h.2 a' b' h'.1
  have hge := h'.2 a b h.1
  omega

/-- No path is above itself. -/
private theorem not_isNested_self (paths : List String) (a : Nat) : ¬IsNested paths a a := by
  rintro ⟨outer, inner, ha, hb, hanc⟩
  obtain rfl := Option.some.inj (ha.symm.trans hb)
  simp [isProperAncestor] at hanc

/-- Nothing is found exactly if no path is above another one. -/
theorem nestedPair?_eq_none_iff {paths : List String} :
    nestedPair? paths = none ↔ ∀ a b, ¬IsNested paths a b := by
  simp only [nestedPair?, List.findSome?_eq_none_iff, Option.map_eq_none_iff,
    List.findIdx?_eq_none_iff, Prod.forall, List.mem_zipIdx_iff_getElem?]
  constructor
  · rintro h a b ⟨outer, inner, ha, hb, hanc⟩
    have := h outer a ha inner (List.mem_of_getElem? hb)
    simp [hanc] at this
  · intro h outer a ha inner hinner
    obtain ⟨b, hb⟩ := List.mem_iff_getElem?.mp hinner
    exact Bool.eq_false_iff.mpr fun hanc => h a b ⟨outer, inner, ha, hb, hanc⟩

/-- The pair that is found is nested, and no nested pair is less. -/
private theorem isLeastNested_of_nestedPair? {paths : List String} {a b : Nat}
    (h : nestedPair? paths = some (a, b)) : IsLeastNested paths a b := by
  rw [nestedPair?, List.findSome?_eq_some_iff] at h
  obtain ⟨before, ⟨outer₀, a'⟩, after, hsplit, hfound, hbefore⟩ := h
  obtain ⟨b', hb, heq⟩ := Option.map_eq_some_iff.mp hfound
  obtain ⟨rfl, rfl⟩ := Prod.mk.inj heq
  obtain ⟨hlt, hanc, hmin⟩ := List.findIdx?_eq_some_iff_getElem.mp hb
  have hat (i : Nat) : paths.zipIdx[i]? = paths[i]?.map (·, i) := by simp
  -- The position that is kept with a path is the number of paths before it.
  have hentry : paths[before.length]?.map (·, before.length) = some (outer₀, a') := by
    rw [← hat, hsplit]
    simp
  obtain ⟨outer, houter, heq⟩ := Option.map_eq_some_iff.mp hentry
  obtain ⟨rfl, rfl⟩ := Prod.mk.inj heq
  refine ⟨⟨outer, _, houter, List.getElem?_eq_getElem hlt, hanc⟩, ?_⟩
  rintro i j ⟨outer', inner', hi, hj, hanc'⟩
  rcases Nat.lt_trichotomy i before.length with hless | rfl | hmore
  · -- An earlier path would have been found to be above the path at `j`.
    have hmem : (outer', i) ∈ before := by
      have := hat i
      rw [hsplit, List.getElem?_append_left hless, hi] at this
      exact List.mem_of_getElem? this
    have hnone := hbefore _ hmem
    simp only [Option.map_eq_none_iff, List.findIdx?_eq_none_iff] at hnone
    have := hnone inner' (List.mem_of_getElem? hj)
    simp [hanc'] at this
  · -- Below the same path, the first one that it is above was taken.
    obtain rfl := Option.some.inj (houter.symm.trans hi)
    refine .inr ⟨rfl, Nat.le_of_not_lt fun hjb => ?_⟩
    obtain ⟨_, hj⟩ := List.getElem?_eq_some_iff.mp hj
    exact hmin j hjb (hj ▸ hanc')
  · exact .inl hmore

/-- A pair is found exactly if it is the least one. -/
theorem nestedPair?_eq_some_iff {paths : List String} {a b : Nat} :
    nestedPair? paths = some (a, b) ↔ IsLeastNested paths a b := by
  refine ⟨isLeastNested_of_nestedPair?, fun h => ?_⟩
  -- Some pair is found, and as both are least it is this one.
  cases hfound : nestedPair? paths with
  | none => exact absurd h.1 (nestedPair?_eq_none_iff.mp hfound a b)
  | some pair =>
    obtain ⟨rfl, rfl⟩ := (isLeastNested_of_nestedPair? hfound).unique h
    rfl

/-! ## What the check finds -/

/-- Where no destination is above another one, there is no nesting. -/
private theorem nesting?_of_flat {d : Document} (h : ∀ a b, ¬IsNested (destinations d) a b) :
    nesting? d = none := by
  rw [nesting?, nestedPair?_eq_none_iff.mpr h]
  rfl

/-- Else the least pair gives both paths and which of them was declared first. -/
private theorem nesting?_of_isLeastNested {d : Document} {a b : Nat} {outer inner : String}
    (h : IsLeastNested (destinations d) a b) (ha : (destinations d)[a]? = some outer)
    (hb : (destinations d)[b]? = some inner) : nesting? d = some ⟨outer, inner, a < b⟩ := by
  rw [nesting?, nestedPair?_eq_some_iff.mpr h]
  simp [ha, hb]

/-- The finding that the outer mount of a pair is not active. -/
def outerShadowed (outer inner : String) : Finding :=
  .mismatch s!"mount order: {outer} (ancestor of {inner})" "active" "shadowed"

/-- The finding that the inner mount of a pair is active although it was declared first, or
    shadowed although it was declared last. -/
def innerMisplaced (outer inner : String) (outerFirst : Bool) : Finding :=
  let relation := if outerFirst then "after" else "before"
  .mismatch s!"mount order: {inner} (declared {relation} {outer})" (activity outerFirst)
    (activity !outerFirst)

/-- The rule for the order of nested mounts: what follows from the declared paths and the answer to
    the question for the table. -/
inductive TopologyRule (paths : List String) : Except IoError MountTable → Conclusion → Prop where
  /-- Where no path is above another one, any table will do, even one that cannot be read. -/
  | flat {answer : Except IoError MountTable} (hflat : ∀ a b, ¬IsNested paths a b) :
    TopologyRule paths answer (.ok ())
  /-- Else the table must be read. -/
  | unread {a b : Nat} {e : IoError} (hleast : IsLeastNested paths a b) :
    TopologyRule paths (.error e) (.error [.unanswered "mount table" e])
  /-- The outer mount of the least pair must be active, and the inner one exactly if it was
      declared later. -/
  | read {a b : Nat} {outer inner : String} {live : MountTable}
    (hleast : IsLeastNested paths a b) (ha : paths[a]? = some outer)
    (hb : paths[b]? = some inner) :
    TopologyRule paths (.ok live)
      (conclude ((if live.Active outer then [] else [outerShadowed outer inner]) ++
        if live.Active inner ↔ a < b then [] else [innerMisplaced outer inner (a < b)]))

/-- What is found about a nesting is one finding for each of its paths that is not as it should be,
    the outer one first. -/
private theorem nestingFindings_eq (outer inner : String) (outerFirst : Bool) (live : MountTable) :
    nestingFindings ⟨outer, inner, outerFirst⟩ live =
      (if live.Active outer then [] else [outerShadowed outer inner]) ++
        if live.Active inner ↔ outerFirst then [] else [innerMisplaced outer inner outerFirst] := by
  have hactive (path : String) : live.Active path ↔ live.isActive path = true :=
    (live.isActive_iff path).symm
  simp only [nestingFindings, Findings.compare, Findings.ensure, hactive, outerShadowed,
    innerMisplaced]
  cases live.isActive outer <;> cases live.isActive inner <;> cases outerFirst <;>
    simp [activity]

/-- What is found where the table is read. -/
theorem mountOrder_of_isLeastNested {d : Document} {s : System} {a b : Nat}
    {outer inner : String} (hstack : (d.intendedPlatform s.host).stacksMounts = true)
    (h : IsLeastNested (destinations d) a b) (ha : (destinations d)[a]? = some outer)
    (hb : (destinations d)[b]? = some inner) :
    mountOrder d s = match s.ask .mounts with
      | .ok live => conclude (nestingFindings ⟨outer, inner, a < b⟩ live)
      | .error e => .error [.unanswered mountTable e] := by
  simp only [mountOrder, hstack, nesting?_of_isLeastNested h ha hb]
  cases hask : s.ask .mounts with
  | ok live =>
    rw [System.query_of_ok hask]
    rfl
  | error e =>
    rw [System.query_of_error hask]
    rfl

/-- Without a nesting the check holds and does not ask for the table. -/
theorem mountOrder_of_flat {d : Document} (s : System)
    (hstack : (d.intendedPlatform s.host).stacksMounts = true)
    (h : ∀ a b, ¬IsNested (destinations d) a b) : mountOrder d s = .ok () := by
  simp only [mountOrder, hstack, nesting?_of_flat h]
  rfl

/-- The check concludes exactly what the topology rule says. -/
theorem mountOrder_eq_iff_topologyRule (d : Document) (s : System) (c : Conclusion)
    (hstack : (d.intendedPlatform s.host).stacksMounts = true) :
    mountOrder d s = c ↔ TopologyRule (destinations d) (s.ask .mounts) c := by
  constructor
  · -- The check goes through the cases of the rule.
    rintro rfl
    cases hpair : nestedPair? (destinations d) with
    | none =>
      have hflat := nestedPair?_eq_none_iff.mp hpair
      rw [mountOrder_of_flat s hstack hflat]
      exact .flat hflat
    | some pair =>
      obtain ⟨a, b⟩ := pair
      have hleast := nestedPair?_eq_some_iff.mp hpair
      obtain ⟨outer, inner, ha, hb, -⟩ := hleast.1
      rw [mountOrder_of_isLeastNested hstack hleast ha hb]
      cases s.ask .mounts with
      | error e => exact .unread hleast
      | ok live =>
        have hread : TopologyRule _ (.ok live) _ := .read hleast ha hb
        simpa only [nestingFindings_eq, decide_eq_true_eq] using hread
  · -- In each case of the rule, what the check does is known.
    intro hrule
    cases hask : s.ask .mounts with
    | error e =>
      rw [hask] at hrule
      cases hrule with
      | flat hflat => exact mountOrder_of_flat s hstack hflat
      | unread hleast =>
        obtain ⟨outer, inner, ha, hb, -⟩ := hleast.1
        rw [mountOrder_of_isLeastNested hstack hleast ha hb, hask]
        rfl
    | ok live =>
      rw [hask] at hrule
      cases hrule with
      | flat hflat => exact mountOrder_of_flat s hstack hflat
      | read hleast ha hb =>
        rw [mountOrder_of_isLeastNested hstack hleast ha hb, hask]
        simp only [nestingFindings_eq, decide_eq_true_eq]

/-- A document with three mounts, of which the last lies above the other two. -/
def coveredMounts : Document where
  mounts := ["/a/b", "/a/b/c", "/a"].map fun path =>
    { destination := path, fstype := "tmpfs", source := "tmpfs" }

/-- The table of a runtime that makes these mounts in their order. -/
def coveredTable : MountTable := ["/a/b", "/a/b/c", "/a"].map (⟨·, "tmpfs", "tmpfs"⟩)

/-- The third mount shadows both of the pair, and both are reported. -/
theorem topologyRule_coveredMounts :
    let s : System := { mounts := coveredTable : Replica }.system .linux
    (coveredMounts.intendedPlatform s.host).stacksMounts = true ∧
      TopologyRule (destinations coveredMounts) (.ok coveredTable)
        (.error [outerShadowed "/a/b" "/a/b/c", innerMisplaced "/a/b" "/a/b/c" true]) := by
  intro s
  have hfound : mountOrder coveredMounts s =
      .error [outerShadowed "/a/b" "/a/b/c", innerMisplaced "/a/b" "/a/b/c" true] := by
    decide +kernel
  exact ⟨rfl, (mountOrder_eq_iff_topologyRule coveredMounts s _ rfl).mp hfound⟩

/-! ## Mounts in declared order -/

/-- In a table that ends with mounts at the given paths, each path is active unless a later one
    is above it. -/
private theorem isActive_append_iff (earlier : MountTable) {recs : MountTable} {paths : List String}
    {i : Nat} {path : String} (hrecs : recs.map (fun r => canonical r.mountpoint) = paths)
    (hdistinct : paths.Nodup) (hi : paths[i]? = some path) :
    (earlier ++ recs).isActive path = true ↔ ∀ j, i < j → ¬IsNested paths j i := by
  subst hrecs
  obtain ⟨r, hr, hat⟩ : ∃ r, recs[i]? = some r ∧ canonical r.mountpoint = path := by
    simpa using hi
  obtain ⟨hlt, hri⟩ := List.getElem?_eq_some_iff.mp hr
  -- The records behind the one at `i` are those at greater positions.
  have hmem (r' : LiveMount) : r' ∈ recs.drop (i + 1) ↔ ∃ j, i < j ∧ recs[j]? = some r' := by
    rw [List.mem_iff_getElem?]
    constructor
    · rintro ⟨k, hk⟩
      exact ⟨i + 1 + k, by omega, by rwa [List.getElem?_drop] at hk⟩
    · rintro ⟨j, hij, hj⟩
      exact ⟨j - (i + 1), by rwa [List.getElem?_drop, show i + 1 + (j - (i + 1)) = j by omega]⟩
  -- Later records are at other paths, so the record at `i` is the last one at its path.
  have hlater : ∀ r' ∈ recs.drop (i + 1), canonical r'.mountpoint ≠ path := by
    intro r' hr' heq
    obtain ⟨j, hij, hj⟩ := (hmem r').mp hr'
    have hlt' : i < (recs.map fun r => canonical r.mountpoint).length := by simpa using hlt
    have : i = j := (List.getElem?_inj hlt' hdistinct).mp (by simp [hr, hj, hat, heq])
    omega
  have hsplit : earlier ++ recs = (earlier ++ recs.take i) ++ r :: recs.drop (i + 1) := by
    rw [List.append_assoc, ← hri, ← List.drop_eq_getElem_cons hlt, List.take_append_drop]
  rw [hsplit, MountTable.isActive_append_cons _ hat hlater]
  simp only [List.all_eq_true, Bool.not_eq_true', hmem]
  constructor
  · rintro h j hij ⟨outer, inner, hj, hi', hanc⟩
    obtain ⟨r', hr', rfl⟩ := by simpa using hj
    obtain rfl := Option.some.inj (hi.symm.trans hi')
    simp [h r' ⟨j, hij, hr'⟩] at hanc
  · rintro h r' ⟨j, hij, hj⟩
    refine Bool.eq_false_iff.mpr fun hanc => h j hij ?_
    exact ⟨_, path, by simp [hj], hi, hanc⟩

/-- What is found about the least pair where the table ends with mounts at the given paths. -/
private theorem nestingFindings_append_eq_nil_iff {earlier recs : MountTable} {paths : List String}
    {a b : Nat} {outer inner : String}
    (hrecs : recs.map (fun r => canonical r.mountpoint) = paths) (hdistinct : paths.Nodup)
    (hnested : IsNested paths a b) (ha : paths[a]? = some outer) (hb : paths[b]? = some inner) :
    nestingFindings ⟨outer, inner, a < b⟩ (earlier ++ recs) = [] ↔
      (∀ j, a < j → ¬IsNested paths j a) ∧ (a < b → ∀ j, b < j → ¬IsNested paths j b) := by
  have houter := isActive_append_iff earlier hrecs hdistinct ha
  have hinner := isActive_append_iff earlier hrecs hdistinct hb
  have hne : a ≠ b := fun heq => not_isNested_self paths a (heq ▸ hnested)
  have hfound : nestingFindings ⟨outer, inner, a < b⟩ (earlier ++ recs) = [] ↔
      (earlier ++ recs).isActive outer = true ∧
        ((earlier ++ recs).isActive inner = true ↔ a < b) := by
    simp [nestingFindings_eq, ← MountTable.isActive_iff]
  rw [hfound, houter, hinner]
  -- Given that the outer mount is active, only the inner one is left.
  refine and_congr_right fun _ => ?_
  rcases Nat.lt_or_gt_of_ne hne with hab | hba
  · simp [hab]
  · -- The outer mount comes later, so it shadows the inner one.
    have hshadowed : ¬∀ j, b < j → ¬IsNested paths j b := fun h => h a hba hnested
    simp [hshadowed, Nat.not_lt.mpr (Nat.le_of_lt hba)]

/-- What is found where the table ends with the declared mounts in their order depends only on
    the order in which they were declared. -/
theorem mountOrder_append_eq_ok_iff {d : Document} {s : System} {earlier recs : MountTable}
    (hstack : (d.intendedPlatform s.host).stacksMounts = true) (hdistinct : (destinations d).Nodup)
    (hask : s.ask .mounts = .ok (earlier ++ recs))
    (hrecs : recs.map (fun r => canonical r.mountpoint) = destinations d) :
    mountOrder d s = .ok () ↔
      ∀ a b, nestedPair? (destinations d) = some (a, b) →
        (∀ j, a < j → ¬IsNested (destinations d) j a) ∧
          (a < b → ∀ j, b < j → ¬IsNested (destinations d) j b) := by
  cases hpair : nestedPair? (destinations d) with
  | none =>
    rw [mountOrder_of_flat s hstack (nestedPair?_eq_none_iff.mp hpair)]
    simp
  | some pair =>
    obtain ⟨a, b⟩ := pair
    have hleast := nestedPair?_eq_some_iff.mp hpair
    obtain ⟨outer, inner, ha, hb, -⟩ := hleast.1
    rw [mountOrder_of_isLeastNested hstack hleast ha hb, hask]
    -- The pair that the search finds is the only one that the condition is about.
    refine conclude_eq_ok_iff.trans <|
      (nestingFindings_append_eq_nil_iff hrecs hdistinct hleast.1 ha hb).trans ?_
    constructor
    · intro h a' b' heq
      obtain ⟨rfl, rfl⟩ := Prod.mk.inj (Option.some.inj heq)
      exact h
    · exact fun h => h a b rfl

/-- A runtime that makes all declared mounts in their order, whatever was mounted before, passes
    exactly if no third mount shadows one of the least pair after it was made. -/
theorem mountOrder_eq_ok_iff_of_map_eq (d : Document) (s : System) (earlier recs : MountTable)
    (hstack : (d.intendedPlatform s.host).stacksMounts = true) (hdistinct : (destinations d).Nodup)
    (hask : s.ask .mounts = .ok (earlier ++ recs))
    (hrecs : recs.map (fun r => canonical r.mountpoint) = destinations d) :
    mountOrder d s = .ok () ↔
      ∀ a b, IsLeastNested (destinations d) a b →
        (∀ j, a < j → ¬IsNested (destinations d) j a) ∧
          (a < b → ∀ j, b < j → ¬IsNested (destinations d) j b) := by
  rw [mountOrder_append_eq_ok_iff hstack hdistinct hask hrecs]
  simp only [nestedPair?_eq_some_iff]

/-- A mount above the pair that was made before them does no harm. -/
theorem mountOrder_nested_below_earlier_mount :
    let d : Document := { mounts := [{ destination := "/a/b//" }, { destination := "/a/b/./c" }] }
    let earlier : MountTable := [⟨"/a", "tmpfs", "tmpfs"⟩]
    let recs : MountTable := [⟨"/a/b", "", "."⟩, ⟨"/a/b/c", "", "."⟩]
    let s : System := { mounts := earlier ++ recs : Replica }.system .linux
    ((d.intendedPlatform s.host).stacksMounts = true ∧ (destinations d).Nodup ∧
      s.ask .mounts = .ok (earlier ++ recs) ∧
      recs.map (fun r => canonical r.mountpoint) = destinations d) ∧
      ∀ a b, IsLeastNested (destinations d) a b →
        (∀ j, a < j → ¬IsNested (destinations d) j a) ∧
          (a < b → ∀ j, b < j → ¬IsNested (destinations d) j b) := by
  intro d earlier recs s
  have hdistinct : (destinations d).Nodup := by decide +kernel
  have hrecs : recs.map (fun r => canonical r.mountpoint) = destinations d := by decide +kernel
  -- That the check holds can be computed, and the condition follows from it.
  have hpass : mountOrder d s = .ok () := by decide +kernel
  refine ⟨⟨rfl, hdistinct, rfl, hrecs⟩, ?_⟩
  exact (mountOrder_eq_ok_iff_of_map_eq d s earlier recs rfl hdistinct rfl hrecs).mp hpass

/-- Making all declared mounts in their order is not enough to pass. -/
theorem mountOrder_coveredMounts_ne_ok :
    let s : System := { mounts := coveredTable : Replica }.system .linux
    (coveredMounts.intendedPlatform s.host).stacksMounts = true ∧
      (destinations coveredMounts).Nodup ∧ s.ask .mounts = .ok coveredTable ∧
      coveredTable.map (fun r => canonical r.mountpoint) = destinations coveredMounts ∧
      mountOrder coveredMounts s ≠ .ok () :=
  ⟨rfl, by decide +kernel, rfl, by decide +kernel, by decide +kernel⟩

end ContainerAudit.Check
