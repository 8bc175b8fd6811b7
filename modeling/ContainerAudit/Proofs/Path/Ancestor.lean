import ContainerAudit.Proofs.Path.Canonical

/-!
# The tree of rooted paths

`isProperAncestor` compares characters: the text of one path, a slash, and then anything.  On
canonical paths this comes to a comparison of names.  The names of the outer path are the first ones
of the inner path, which has more of them.  A name never runs into the next one, since the slash has
to be there, and the root, whose text ends in that slash, is compared on its own.

## Key results

- `isProperAncestor_join_iff`: the comparison of texts is a comparison of normal forms
- `RootedPath.isAbove_iff`: on rooted paths, one list of names is a proper prefix of the other
- `RootedPath.isAbove_tree`: the rooted paths are a tree with `/` at its root
-/

namespace ContainerAudit.Path

/-! ## Texts that go on with a slash -/

/-- Every path but the root is above the texts that go on with a slash, and above no other. -/
theorem isProperAncestor_iff_exists {outer inner : String} (hroot : outer ≠ "/") :
    isProperAncestor outer inner = true ↔ ∃ rest, inner = outer ++ "/" ++ rest := by
  unfold isProperAncestor
  rw [if_neg hroot]
  constructor
  · intro h
    split at h
    · contradiction
    · cases hbegins : outer.toList.isPrefixOf? inner.toList with
      | none => simp [hbegins] at h
      | some rest =>
        -- What is left of the inner text begins with a slash.
        rw [hbegins] at h
        obtain ⟨cs, rfl⟩ := List.head?_eq_some_iff.mp (beq_iff_eq.mp h)
        have happend := List.isPrefixOf?_eq_some_iff_append_eq.mp hbegins
        refine ⟨String.ofList cs, ?_⟩
        rw [← String.toList_inj, ← happend]
        simp
  · rintro ⟨rest, rfl⟩
    have hbegins : outer.toList.isPrefixOf? (outer ++ "/" ++ rest).toList =
        some ('/' :: rest.toList) := by
      rw [List.isPrefixOf?_eq_some_iff_append_eq]
      simp
    have hne : outer ≠ outer ++ "/" ++ rest := fun h => by
      have hlength := congrArg String.length h
      have hslash : "/".length = 1 := by decide
      rw [String.length_append, String.length_append, hslash] at hlength
      omega
    rw [if_neg hne, hbegins]
    rfl

theorem components_ne_nil (path : String) : components path ≠ [] := by
  simp [components]

/-- A slash ends one component and begins another. -/
theorem components_append_slash (before after : String) :
    components (before ++ "/" ++ after) = components before ++ components after := by
  simp [components, List.splitOn_append_cons_self]

/-! ## Normal forms -/

/-- A path that goes on from the root is not the root. -/
private theorem join_ne_root {rooted : Bool} {names : List String} (h : IsNormal rooted names)
    (hne : names ≠ []) : join rooted names ≠ "/" := by
  intro heq
  have hrooted : rooted = true := by
    rw [← isRooted_join h, heq]
    rfl
  subst hrooted
  exact hne (join_injective h (isNormal_nil true) heq)

/-- A path of which nothing is left still has a piece, beside the one in front of the root. -/
private theorem length_components_join_nil (rooted : Bool) :
    (components (join rooted [])).length = (if rooted then [""] else []).length + 1 := by
  cases rooted <;> decide +kernel

/-- A path that is split into the components of another one and more has them in its normal form. -/
theorem eq_append_of_components_join {rooted : Bool} {outer inner more : List String}
    (hinner : IsNormal rooted inner) (houter : outer ≠ []) (hmore : more ≠ [])
    (h : components (join rooted inner) = (if rooted then [""] else []) ++ outer ++ more) :
    inner = outer ++ more := by
  by_cases hnil : inner = []
  · have hlength := congrArg List.length h
    rw [hnil, length_components_join_nil, List.length_append, List.length_append] at hlength
    have hone : 0 < outer.length := List.length_pos_of_ne_nil houter
    have htwo : 0 < more.length := List.length_pos_of_ne_nil hmore
    omega
  · rw [components_join hnil hinner, List.append_assoc] at h
    exact List.append_cancel_left h

/-- A canonical path that holds any names is above another one exactly if they are the first names
    of the other one, which has more. -/
theorem isProperAncestor_join_iff {rooted : Bool} {outer inner : List String}
    (houter : IsNormal rooted outer) (hinner : IsNormal rooted inner) (hne : outer ≠ []) :
    isProperAncestor (join rooted outer) (join rooted inner) = true ↔
      outer <+: inner ∧ outer ≠ inner := by
  rw [isProperAncestor_iff_exists (join_ne_root houter hne)]
  constructor
  · -- What follows the slash is split into the names that the inner path has more.
    rintro ⟨rest, htext⟩
    have hpieces : components (join rooted inner) =
        (if rooted then [""] else []) ++ outer ++ components rest := by
      rw [htext, components_append_slash, components_join hne houter]
    have hrest : components rest ≠ [] := components_ne_nil rest
    obtain rfl := eq_append_of_components_join hinner hne hrest hpieces
    exact ⟨List.prefix_append _ _, by simpa using hrest⟩
  · -- The names that the inner path has more are written behind the slash.
    rintro ⟨⟨more, rfl⟩, hproper⟩
    have hmore : more ≠ [] := by simpa using hproper
    refine ⟨"/".intercalate more, ?_⟩
    rw [join_of_ne_nil (by simp [hne]), join_of_ne_nil hne,
      String.intercalate_append_of_ne_nil hne hmore]
    simp only [String.append_assoc]

/-- The root is above every other rooted path. -/
private theorem isProperAncestor_root_iff {inner : List String} (hinner : IsNormal true inner) :
    isProperAncestor "/" (join true inner) = true ↔ inner ≠ [] := by
  unfold isProperAncestor
  have hroot : "/" = join true inner ↔ inner = [] := by
    constructor
    · intro h
      exact (join_injective (isNormal_nil true) hinner h).symm
    · rintro rfl
      rfl
  simp [hroot, isRooted_join hinner]

/-- The normal form of a path is what its components are without the empty ones of the root, or
    without the dot of a path that has no root and stays where it starts. -/
private theorem filter_components_join {rooted : Bool} {names : List String}
    (h : IsNormal rooted names) :
    (components (join rooted names)).filter (· ≠ if rooted then "" else ".") = names := by
  by_cases hne : names = []
  · subst hne
    cases rooted <;> decide +kernel
  · -- A normal form holds neither, so nothing but the piece in front of the root is left out.
    have hkeep : names.filter (· ≠ if rooted then "" else ".") = names := by
      refine List.filter_eq_self.mpr fun c hc => decide_eq_true ?_
      split
      · exact (h.piece hc).1
      · exact h.ne_dot hc
    rw [components_join hne h, List.filter_append, hkeep]
    cases rooted <;> rfl

/-- A canonical path is joined from its normal form, and that can be read off its text. -/
theorem exists_eq_join {rooted : Bool} {path text : String} (hroot : isRooted text = rooted)
    (h : canonical path = text) :
    ∃ names, IsNormal rooted names ∧ text = join rooted names ∧
      (components text).filter (· ≠ if rooted then "" else ".") = names := by
  have hcanonical : IsCanonical text := h ▸ isCanonical_canonical path
  obtain ⟨names, hnormal, htext⟩ := hcanonical.exists_join
  rw [hroot] at hnormal htext
  exact ⟨names, hnormal, htext, by rw [htext, filter_components_join hnormal]⟩

/-! ## Rooted paths -/

/-- A path at the root in its canonical spelling. -/
@[ext]
structure RootedPath where
  text : String
  isRooted : isRooted text = true
  exists_canonical_eq : ∃ path, canonical path = text

namespace RootedPath

/-- The canonical spelling of a path at the root. -/
def ofPath (path : String) (h : Path.isRooted path = true) : RootedPath :=
  ⟨canonical path, (isRooted_canonical path).trans h, path, rfl⟩

/-- The directory that every rooted path starts from. -/
def root : RootedPath := ⟨"/", rfl, "/", by decide +kernel⟩

/-- The names on the way from the root: the components that are not empty. -/
def names (p : RootedPath) : List String := (components p.text).filter (· ≠ "")

/-- One path strictly contains another. -/
def IsAbove (outer inner : RootedPath) : Prop := isProperAncestor outer.text inner.text = true

/-- A rooted path is joined from its names. -/
private theorem exists_names_eq (p : RootedPath) :
    ∃ steps, IsNormal true steps ∧ p.text = join true steps ∧ p.names = steps := by
  obtain ⟨path, hpath⟩ := p.exists_canonical_eq
  exact exists_eq_join p.isRooted hpath

/-- The names of a rooted path are in normal form. -/
private theorem isNormal_names (p : RootedPath) : IsNormal true p.names := by
  obtain ⟨steps, hnormal, -, hnames⟩ := p.exists_names_eq
  exact hnames ▸ hnormal

/-- Joining the names of a path gives the path back. -/
private theorem join_names (p : RootedPath) : join true p.names = p.text := by
  obtain ⟨steps, -, htext, hnames⟩ := p.exists_names_eq
  rw [hnames, htext]

theorem names_injective {p q : RootedPath} (h : p.names = q.names) : p = q := by
  ext1
  rw [← p.join_names, ← q.join_names, h]

@[simp] theorem names_root : root.names = [] := by decide +kernel

/-- One rooted path is above another exactly if its names are a proper prefix. -/
theorem isAbove_iff {outer inner : RootedPath} :
    outer.IsAbove inner ↔ outer.names <+: inner.names ∧ outer.names ≠ inner.names := by
  rw [IsAbove, ← outer.join_names, ← inner.join_names]
  -- The root ends in the slash that any other path is followed by, so it is compared apart.
  by_cases hne : outer.names = []
  · have hroot : join true outer.names = "/" := by
      rw [hne]
      rfl
    rw [hroot, isProperAncestor_root_iff inner.isNormal_names, hne]
    exact ⟨fun h => ⟨List.nil_prefix, Ne.symm h⟩, fun h => Ne.symm h.2⟩
  · exact isProperAncestor_join_iff outer.isNormal_names inner.isNormal_names hne

/-- The inner path has more names. -/
theorem IsAbove.length_lt {outer inner : RootedPath} (h : outer.IsAbove inner) :
    outer.names.length < inner.names.length := by
  obtain ⟨hbegins, hne⟩ := isAbove_iff.mp h
  refine Nat.lt_of_le_of_ne hbegins.length_le fun hlength => hne ?_
  exact hbegins.eq_of_length hlength

theorem not_isAbove_self (p : RootedPath) : ¬p.IsAbove p :=
  fun h => Nat.lt_irrefl _ h.length_lt

theorem IsAbove.trans {a b c : RootedPath} (hab : a.IsAbove b) (hbc : b.IsAbove c) :
    a.IsAbove c := by
  have hbegins := (isAbove_iff.mp hab).1.trans (isAbove_iff.mp hbc).1
  refine isAbove_iff.mpr ⟨hbegins, fun heq => ?_⟩
  have hlt := Nat.lt_trans hab.length_lt hbc.length_lt
  rw [heq] at hlt
  exact Nat.lt_irrefl _ hlt

theorem IsAbove.asymm {a b : RootedPath} (h : a.IsAbove b) : ¬b.IsAbove a :=
  fun h' => Nat.lt_asymm h.length_lt h'.length_lt

/-- The root is above every other path. -/
private theorem isAbove_of_ne_root {p : RootedPath} (hne : p ≠ root) : root.IsAbove p := by
  rw [isAbove_iff, names_root]
  refine ⟨List.nil_prefix, fun hnil => hne (names_injective ?_)⟩
  rw [← hnil, names_root]

/-- The paths above one path lie above each other. -/
private theorem IsAbove.eq_or_isAbove {a b p : RootedPath} (ha : a.IsAbove p) (hb : b.IsAbove p) :
    a = b ∨ a.IsAbove b ∨ b.IsAbove a := by
  by_cases heq : a.names = b.names
  · exact .inl (names_injective heq)
  · rcases List.prefix_or_prefix_of_prefix (isAbove_iff.mp ha).1 (isAbove_iff.mp hb).1 with h | h
    · exact .inr (.inl (isAbove_iff.mpr ⟨h, heq⟩))
    · exact .inr (.inr (isAbove_iff.mpr ⟨h, Ne.symm heq⟩))

/-- Rooted paths are ordered as the nodes of a tree: one is above another exactly if its names are
    a proper prefix, the root is above all others, and the paths above one path are a chain. -/
theorem isAbove_tree (a b p : RootedPath) :
    (a.IsAbove p ↔ a.names <+: p.names ∧ a.names ≠ p.names) ∧
      ¬a.IsAbove a ∧ (a.IsAbove b → b.IsAbove p → a.IsAbove p) ∧ (a.IsAbove b → ¬b.IsAbove a) ∧
      (p ≠ root → root.IsAbove p) ∧
      (a.IsAbove p → b.IsAbove p → a = b ∨ a.IsAbove b ∨ b.IsAbove a) :=
  ⟨isAbove_iff, not_isAbove_self a, IsAbove.trans, IsAbove.asymm, isAbove_of_ne_root,
    IsAbove.eq_or_isAbove⟩

/-- Three nested paths, the last of which has a name that begins like the first one. -/
theorem isAbove_tree_nested :
    let a := ofPath "/a" (by decide)
    let b := ofPath "/a/./b" (by decide)
    let p := ofPath "/a/b/ab/" (by decide)
    (a.IsAbove b ∧ b.IsAbove p ∧ p ≠ root) ∧ a.IsAbove p ∧ ¬b.IsAbove a ∧ root.IsAbove p := by
  intro a b p
  have hab : a.IsAbove b := by unfold IsAbove; decide +kernel
  have hbp : b.IsAbove p := by unfold IsAbove; decide +kernel
  have hp : p ≠ root := fun h => absurd (congrArg text h) (by decide +kernel)
  obtain ⟨-, -, htrans, hasymm, hroot, -⟩ := isAbove_tree a b p
  exact ⟨⟨hab, hbp, hp⟩, htrans hab hbp, hasymm hab, hroot hp⟩

end RootedPath

end ContainerAudit.Path
