import ContainerAudit.Proofs.Path.Canonical
import Mathlib.Logic.Relation

/-!
# Paths that mean the same place

Two spellings of a path are equivalent if both start at the root or neither does, and if the
components of one become those of the other by leaving out or putting in components that lead
nowhere: an empty one, a dot, a name with the way back up, or the way up from the root.  The
relation says nothing about how a path is followed.  Leaving such components out leaves no trace on
the stack that `normalForm` keeps, so equivalent paths have one canonical spelling.

The other way round, following a path leaves its detours out one by one, until none is left.  Paths
with one canonical spelling therefore meet in their normal form: detours only have to be left out of
both, and never put in.

## Key results

- `Equivalent.canonical_eq`, `Equivalent.of_canonical_eq`: one canonical spelling, one place
- `reflTransGen_normalForm`: a path loses its detours on the way to its normal form
- `equivalent_iff_join`: equivalent paths meet when detours are left out of both
- `canonical_eq_iff_equivalent`: `canonical` picks one spelling out of all equivalent ones
-/

namespace ContainerAudit.Path

/-- Leaving out one component, or two, that lead nowhere. -/
inductive Detour (rooted : Bool) : List String → List String → Prop where
  /-- An empty component or a dot. -/
  | stay (before after : List String) (c : String) (h : c = "" ∨ c = ".") :
    Detour rooted (before ++ c :: after) (before ++ after)
  /-- A step down and back up. -/
  | back (before after : List String) (name : String)
    (h : name ≠ "" ∧ name ≠ "." ∧ name ≠ "..") :
    Detour rooted (before ++ name :: ".." :: after) (before ++ after)
  /-- A step up from the root. -/
  | top (after : List String) (h : rooted = true) : Detour rooted (".." :: after) after

/-- Two spellings of one path. -/
structure Equivalent (p q : String) : Prop where
  isRooted_eq : isRooted p = isRooted q
  components : Relation.EqvGen (Detour (isRooted p)) (components p) (components q)

theorem Equivalent.refl (p : String) : Equivalent p p := ⟨rfl, .refl _⟩

/-- Leaving one detour out makes an equivalent path. -/
theorem Equivalent.of_detour {p q : String} {longer shorter : List String}
    (hroot : isRooted p = isRooted q) (hp : Path.components p = longer)
    (hq : Path.components q = shorter) (h : Detour (isRooted p) longer shorter) :
    Equivalent p q := by
  subst hp hq
  exact ⟨hroot, .rel _ _ h⟩

/-! ## Following a detour -/

/-- An empty component or a dot leaves the stack as it is. -/
private theorem follow_stay {rooted : Bool} {stack : List String} {c : String}
    (h : c = "" ∨ c = ".") :
    follow rooted stack c = stack :=
  if_pos h

/-- So does a step down with the one back up. -/
private theorem follow_back {rooted : Bool} {stack : List String} {name : String}
    (h : name ≠ "" ∧ name ≠ "." ∧ name ≠ "..") :
    follow rooted (follow rooted stack name) ".." = stack := by
  obtain ⟨hempty, hdot, hup⟩ := h
  have hdown : follow rooted stack name = name :: stack := by
    simp [follow, hempty, hdot, hup]
  rw [hdown]
  simp [follow, hup]

private theorem follow_top : follow true [] ".." = [] := rfl

/-- A detour leads back to where it began. -/
private theorem normalForm_of_detour {rooted : Bool} {longer shorter : List String}
    (h : Detour rooted longer shorter) : normalForm rooted longer = normalForm rooted shorter := by
  unfold normalForm
  cases h with
  | stay before after c h => simp only [List.foldl_append, List.foldl_cons, follow_stay h]
  | back before after name h => simp only [List.foldl_append, List.foldl_cons, follow_back h]
  | top after h =>
    subst h
    rw [List.foldl_cons, follow_top]

/-- Any number of detours, put in or left out, change nothing about what remains. -/
private theorem normalForm_of_eqvGen {rooted : Bool} {a b : List String}
    (h : Relation.EqvGen (Detour rooted) a b) : normalForm rooted a = normalForm rooted b := by
  induction h with
  | rel a b step => exact normalForm_of_detour step
  | refl a => rfl
  | symm a b _ ih => exact ih.symm
  | trans a b c _ _ ih₁ ih₂ => exact ih₁.trans ih₂

/-- Equivalent paths have the same canonical spelling. -/
theorem Equivalent.canonical_eq {p q : String} (h : Equivalent p q) :
    canonical p = canonical q := by
  rw [canonical, canonical, ← h.isRooted_eq, normalForm_of_eqvGen h.components]

/-! ## Leaving all detours out -/

/-- Following a component leaves out the detour that it ends, if it ends one. -/
private theorem reflTransGen_follow {rooted : Bool} {stack : List String}
    (h : IsNormal rooted stack.reverse) (c : String) (after : List String) :
    Relation.ReflTransGen (Detour rooted) (stack.reverse ++ c :: after)
      ((follow rooted stack c).reverse ++ after) := by
  unfold follow
  split
  · rename_i hstay
    exact .single (.stay _ _ c hstay)
  · split
    · -- The way up ends a detour below a name and at the root, and stays where it leads out.
      rename_i hup
      subst hup
      cases stack with
      | nil =>
        cases rooted with
        | true => exact .single (.top after rfl)
        | false => exact .refl
      | cons top below =>
        dsimp only
        split
        · simpa using Relation.ReflTransGen.refl
        · rename_i htop
          have hmem : top ∈ (top :: below).reverse := by simp
          have hname : top ≠ "" ∧ top ≠ "." ∧ top ≠ ".." :=
            ⟨(h.piece hmem).1, h.ne_dot hmem, htop⟩
          simpa using Relation.ReflTransGen.single (Detour.back below.reverse after top hname)
    · -- A name ends nothing: it moves onto the stack.
      simpa using Relation.ReflTransGen.refl

/-- Following components leaves out one detour after the other: what is on the stack stands before
    what is still to be followed. -/
private theorem reflTransGen_foldl_follow {rooted : Bool} {components stack : List String}
    (hc : ∀ c ∈ components, '/' ∉ c.toList) (h : IsNormal rooted stack.reverse) :
    Relation.ReflTransGen (Detour rooted) (stack.reverse ++ components)
      (components.foldl (follow rooted) stack).reverse := by
  induction components generalizing stack with
  | nil =>
    rw [List.append_nil]
    exact .refl
  | cons c rest ih =>
    have hstack : IsNormal rooted (follow rooted stack c).reverse :=
      isNormal_follow (hc c List.mem_cons_self) h
    exact (reflTransGen_follow h c rest).trans
      (ih (fun c' hc' => hc c' (List.mem_cons_of_mem _ hc')) hstack)

/-- A path loses its detours on the way to its normal form. -/
theorem reflTransGen_normalForm (rooted : Bool) (path : String) :
    Relation.ReflTransGen (Detour rooted) (components path)
      (normalForm rooted (components path)) := by
  have hslash : ∀ c ∈ components path, '/' ∉ c.toList := fun _ => no_slash_of_mem_components
  have hstart : IsNormal rooted ([] : List String).reverse := isNormal_nil rooted
  exact reflTransGen_foldl_follow hslash hstart

/-- Paths with one canonical spelling both start at the root, or neither does. -/
private theorem isRooted_eq_of_canonical_eq {p q : String} (h : canonical p = canonical q) :
    isRooted p = isRooted q := by
  rw [← isRooted_canonical p, h, isRooted_canonical]

/-- What remains of a path can be read off its canonical spelling. -/
private theorem normalForm_eq_of_canonical_eq {p q : String} (h : canonical p = canonical q) :
    normalForm (isRooted p) (components p) = normalForm (isRooted q) (components q) := by
  have hroot := isRooted_eq_of_canonical_eq h
  rw [canonical, canonical, hroot] at h
  rw [hroot]
  exact join_injective (isNormal_components _ p) (isNormal_components _ q) h

/-- Paths with one canonical spelling become the same components when detours are left out. -/
private theorem join_components_of_canonical_eq {p q : String} (h : canonical p = canonical q) :
    Relation.Join (Relation.ReflTransGen (Detour (isRooted p))) (components p) (components q) := by
  refine ⟨normalForm (isRooted p) (components p), reflTransGen_normalForm _ p, ?_⟩
  rw [normalForm_eq_of_canonical_eq h, isRooted_eq_of_canonical_eq h]
  exact reflTransGen_normalForm _ q

/-- To make the components of two equivalent paths the same, detours have to be left out of both,
    but none has to be put in. -/
theorem equivalent_iff_join {p q : String} :
    Equivalent p q ↔ isRooted p = isRooted q ∧
      Relation.Join (Relation.ReflTransGen (Detour (isRooted p))) (components p)
        (components q) := by
  constructor
  · intro h
    exact ⟨h.isRooted_eq, join_components_of_canonical_eq h.canonical_eq⟩
  · rintro ⟨hroot, common, hp, hq⟩
    have hle := Relation.EqvGen.reflTransGen_le_eqvGen (Detour (isRooted p))
    exact ⟨hroot, .trans _ _ _ (hle _ _ hp) (.symm _ _ (hle _ _ hq))⟩

/-- Paths with one canonical spelling are equivalent. -/
theorem Equivalent.of_canonical_eq {p q : String} (h : canonical p = canonical q) :
    Equivalent p q :=
  equivalent_iff_join.mpr ⟨isRooted_eq_of_canonical_eq h, join_components_of_canonical_eq h⟩

/-- The canonical spelling is one for each place: two paths have the same one exactly if they are
    equivalent, and it is itself equivalent to the path and its own canonical spelling. -/
theorem canonical_eq_iff_equivalent (p q : String) :
    (canonical p = canonical q ↔ Equivalent p q) ∧ Equivalent (canonical p) p ∧
      canonical (canonical p) = canonical p ∧ IsCanonical (canonical p) :=
  ⟨⟨.of_canonical_eq, Equivalent.canonical_eq⟩, .of_canonical_eq (canonical_canonical p),
    canonical_canonical p, isCanonical_canonical p⟩

end ContainerAudit.Path
