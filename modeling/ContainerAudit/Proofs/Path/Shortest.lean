import ContainerAudit.Proofs.Path.Equivalent
import Mathlib.Data.String.Basic

/-!
# Canonical spellings are the shortest ones

A detour is left out of a path together with the slashes beside it, and nothing is written in its
place.  So the canonical spelling of a path is the path with some of its characters left out, and no
equivalent path is shorter.  The empty path is the exception: its canonical spelling is a dot.  Any
other path that comes to nothing has a dot to spare, for nothing but dots makes a name go away.

## Key results

- `canonical_sublist`: the canonical spelling of a path is left when characters are taken out of it
- `length_canonical_le`: the canonical spelling is a spelling of the path, and no other one is
  shorter, in characters or in bytes
-/

namespace ContainerAudit.Path

/-! ## What detours take away -/

/-- Without a detour some components are left, in their order. -/
theorem Detour.sublist {rooted : Bool} {longer shorter : List String}
    (h : Detour rooted longer shorter) : shorter.Sublist longer := by
  cases h with
  | stay before after c h => exact (List.sublist_cons_self c after).append_left before
  | back before after name h =>
    have hafter : after.Sublist (name :: ".." :: after) := (List.sublist_cons_self _ _).cons name
    exact hafter.append_left before
  | top => exact List.sublist_cons_self ".." shorter

/-- So they are without several detours. -/
private theorem sublist_of_reflTransGen {rooted : Bool} {longer shorter : List String}
    (h : Relation.ReflTransGen (Detour rooted) longer shorter) : shorter.Sublist longer := by
  induction h with
  | refl => exact .refl _
  | tail _ step ih => exact step.sublist.trans ih

/-- Nothing but a dot, or two, makes a component go away that is not empty. -/
private theorem Detour.dot_mem_of_not_mem {rooted : Bool} {longer shorter : List String}
    {c : String}
    (h : Detour rooted longer shorter) (hne : c ≠ "") (hc : c ∈ longer) (hgone : c ∉ shorter) :
    "." ∈ longer ∨ ".." ∈ longer := by
  cases h with
  | stay before after c' h =>
    -- Only the component that is left out can be gone.
    have hcc' : c = c' := by simp_all
    subst hcc'
    exact .inl (h.resolve_left hne ▸ hc)
  | back before after name h => exact .inr (by simp)
  | top => exact .inr List.mem_cons_self

/-- Several detours make a component go away only if one of them does. -/
private theorem dot_mem_of_reflTransGen {rooted : Bool} {longer shorter : List String} {c : String}
    (h : Relation.ReflTransGen (Detour rooted) longer shorter) (hne : c ≠ "") (hc : c ∈ longer)
    (hgone : c ∉ shorter) : "." ∈ longer ∨ ".." ∈ longer := by
  induction h using Relation.ReflTransGen.head_induction_on with
  | refl => exact absurd hc hgone
  | @head longer next step _ ih =>
    by_cases hnext : c ∈ next
    · -- It goes away later on, where there is nothing that was not there before.
      exact (ih hnext).imp (step.sublist.mem ·) (step.sublist.mem ·)
    · exact step.dot_mem_of_not_mem hne hc hnext

/-! ## What is left of the text -/

/-- Leaving out components leaves out characters of the path. -/
private theorem intercalate_sublist {pieces pieces' : List String} (h : pieces.Sublist pieces') :
    ("/".intercalate pieces).toList.Sublist ("/".intercalate pieces').toList := by
  rw [String.toList_intercalate, String.toList_intercalate]
  exact (h.map String.toList).intercalate _

/-- A component stands in its path. -/
private theorem sublist_of_mem_components {path c : String} (h : c ∈ components path) :
    c.toList.Sublist path.toList := by
  have hsub := intercalate_sublist (List.singleton_sublist.mpr h)
  rwa [String.intercalate_singleton, intercalate_components] at hsub

/-- A rooted path is a slash, and then components. -/
private theorem exists_components_of_isRooted {path : String} (h : isRooted path = true) :
    ∃ rest, path = "/" ++ rest ∧ components path = "" :: components rest := by
  obtain ⟨cs, hcs⟩ : ∃ cs, path.toList = '/' :: cs := by
    rw [isRooted, beq_iff_eq, List.head?_eq_some_iff] at h
    exact h
  refine ⟨String.ofList cs, ?_, ?_⟩
  · rw [← String.toList_inj, hcs]
    simp
  · simp [components, hcs, List.splitOn_cons_eq_if_modifyHead]

/-- The first component of a path without a root is not empty, unless the path is. -/
private theorem exists_component_of_not_isRooted {path : String} (hne : path ≠ "")
    (h : isRooted path = false) :
    ∃ c ∈ components path, c ≠ "" := by
  -- Empty components joined by slashes are the empty path, or a path with a slash in front.
  by_contra! hempty
  have hjoin := intercalate_components path
  cases hpieces : components path with
  | nil =>
    rw [hpieces, String.intercalate_nil] at hjoin
    exact hne hjoin.symm
  | cons first rest =>
    obtain rfl := hempty first (by simp [hpieces])
    cases rest with
    | nil =>
      rw [hpieces, String.intercalate_singleton] at hjoin
      exact hne hjoin.symm
    | cons second others =>
      rw [hpieces, String.intercalate_cons_cons] at hjoin
      rw [← hjoin] at h
      simp [isRooted] at h

/-- The canonical spelling of a path is the path with characters left out. -/
theorem canonical_sublist {path : String} (hne : path ≠ "") :
    (canonical path).toList.Sublist path.toList := by
  have hloses := reflTransGen_normalForm (isRooted path) path
  have hnormal := isNormal_components (isRooted path) path
  have hsub := sublist_of_reflTransGen hloses
  unfold canonical
  generalize normalForm (isRooted path) (components path) = names at hloses hnormal hsub ⊢
  cases hroot : isRooted path with
  | true =>
    obtain ⟨rest, hpath, hpieces⟩ := exists_components_of_isRooted hroot
    -- The empty piece in front of the first slash is not among the names.
    have hrest : names.Sublist (components rest) := by
      rw [hpieces] at hsub
      rcases List.sublist_cons_iff.mp hsub with hsub | ⟨others, rfl, -⟩
      · exact hsub
      · exact absurd rfl (hnormal.piece List.mem_cons_self).1
    have htext := intercalate_sublist hrest
    rw [intercalate_components] at htext
    simpa [join, hpath] using htext
  | false =>
    by_cases hnames : names = []
    · -- Nothing is left of a path that had a component.
      obtain ⟨c, hc, hcne⟩ := exists_component_of_not_isRooted hne hroot
      have hgone : c ∉ names := by simp [hnames]
      have hdot : '.' ∈ path.toList := by
        rcases dot_mem_of_reflTransGen hloses hcne hc hgone with h | h
        · exact (sublist_of_mem_components h).mem (by decide)
        · exact (sublist_of_mem_components h).mem (by decide)
      simpa [join, hnames] using List.singleton_sublist.mpr hdot
    · have htext := intercalate_sublist hsub
      rw [intercalate_components] at htext
      simpa [join, hnames] using htext

/-- The canonical spelling of a path is one of its spellings, and no spelling but the empty one is
    shorter, whether characters or bytes are counted. -/
theorem length_canonical_le (p q : String) (hq : q ≠ "") (h : canonical q = canonical p) :
    Equivalent (canonical p) p ∧
      (canonical p).length ≤ q.length ∧ (canonical p).utf8ByteSize ≤ q.utf8ByteSize := by
  refine ⟨.of_canonical_eq (canonical_canonical p), ?_⟩
  rw [← h]
  have hsub := canonical_sublist hq
  constructor
  · rw [← String.length_toList, ← String.length_toList]
    exact hsub.length_le
  · rw [← String.utf8Len_toList, ← String.utf8Len_toList]
    exact String.utf8Len_le_of_sublist hsub

/-- A detour through a name that is longer in bytes than in characters. -/
theorem length_canonical_le_detour :
    let p := "/a/b/../c"
    let q := "/ü/../a//c"
    (q ≠ "" ∧ canonical q = canonical p) ∧ Equivalent (canonical p) p ∧
      (canonical p).length ≤ q.length ∧ (canonical p).utf8ByteSize ≤ q.utf8ByteSize := by
  intro p q
  have hq : q ≠ "" := by decide
  have h : canonical q = canonical p := by decide +kernel
  exact ⟨⟨hq, h⟩, length_canonical_le p q hq h⟩

end ContainerAudit.Path
