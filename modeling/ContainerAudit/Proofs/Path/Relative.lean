import ContainerAudit.Proofs.Path.Ancestor

/-!
# What relative paths contain

A path contains what names lead down to from it.  On rooted paths `isProperAncestor` tells this from
the texts alone.  On relative ones it does not always: their canonical spelling may be a dot, which
no longer path begins with, and it may begin with steps up, which lead out of a path and not into
it.

So the comparison of texts is wrong in two ways.  It overlooks that the start of all relative paths
contains those that only lead down, and it takes a path that leads further up than another one for a
path inside that one.  In every other case it is right.

## Key results

- `canonical_append`: names behind a path become the last names of its canonical spelling
- `RelativePath.isAbove_iff`, `RelativePath.contains_iff`: both relations by the steps of the paths
- `RelativePath.isAbove_iff_contains`: the pairs of paths for which they agree
-/

namespace ContainerAudit.Path

/-! ## Names behind a path -/

private theorem join_ne_empty {rooted : Bool} {names : List String} (h : IsNormal rooted names) :
    join rooted names ≠ "" := by
  intro hempty
  have hcanonical := canonical_join h
  rw [hempty] at hcanonical
  exact absurd hcanonical (by decide +kernel)

/-- A path starts where its beginning does. -/
private theorem isRooted_append {before : String} (hne : before ≠ "") (after : String) :
    isRooted (before ++ after) = isRooted before := by
  have hnil : before.toList ≠ [] := mt String.toList_eq_nil_iff.mp hne
  rw [isRooted, isRooted, String.toList_append, List.head?_append_of_ne_nil _ hnil]

/-- Names that are written behind a path become the last names of its canonical spelling. -/
theorem canonical_append {rooted : Bool} {outer : List String} {way : String}
    (houter : IsNormal rooted outer) (hway : ∀ c ∈ components way, IsName c) :
    canonical (join rooted outer ++ "/" ++ way) = join rooted (outer ++ components way) := by
  have hroot : isRooted (join rooted outer ++ "/" ++ way) = rooted := by
    rw [String.append_assoc, isRooted_append (join_ne_empty houter), isRooted_join houter]
  have hstack : (components (join rooted outer)).foldl (follow rooted) [] = outer.reverse :=
    List.reverse_eq_iff.mp (normalForm_components_join houter)
  rw [canonical, hroot, normalForm, components_append_slash, List.foldl_append, hstack,
    foldl_follow_names hway, List.reverse_append, List.reverse_reverse, List.reverse_reverse]

/-- Names keep a normal form normal. -/
private theorem IsNormal.append_names {rooted : Bool} {outer more : List String}
    (houter : IsNormal rooted outer) (hmore : ∀ c ∈ more, IsName c) :
    IsNormal rooted (outer ++ more) := by
  obtain ⟨ups, names, rfl, hups, hnames⟩ := houter
  refine ⟨ups, names ++ more, List.append_assoc .., hups, fun c hc => ?_⟩
  exact (List.mem_append.mp hc).elim (hnames c) (hmore c)

/-- What stands behind the beginning of a normal form is names, unless that beginning leads up only
    and another step up follows. -/
private theorem IsNormal.names_or_up {rooted : Bool} {outer more : List String}
    (h : IsNormal rooted (outer ++ more)) :
    (∀ c ∈ more, IsName c) ∨ (∀ c ∈ outer, c = "..") ∧ more.head? = some ".." := by
  obtain ⟨ups, names, heq, -, hnames⟩ := h
  -- The beginning ends among the steps up or among the names.
  rcases List.append_eq_append_iff.mp heq with ⟨ups', hups, rfl⟩ | ⟨names', rfl, rfl⟩
  · obtain ⟨-, houter, hrest⟩ := List.replicate_eq_append_iff.mp hups
    have hup : ∀ c ∈ outer, c = ".." := List.eq_replicate_iff.mp houter |>.2
    cases ups' with
    | nil => exact .inl hnames
    | cons up others =>
      have hhead : up = ".." := (List.eq_replicate_iff.mp hrest).2 up List.mem_cons_self
      exact .inr ⟨hup, by simp [hhead]⟩
  · exact .inl fun c hc => hnames c (List.mem_append_right _ hc)

/-! ## Relative paths -/

/-- A path without a root in its canonical spelling. -/
@[ext]
structure RelativePath where
  text : String
  isRooted : isRooted text = false
  exists_eq_canonical : ∃ path, text = canonical path

namespace RelativePath

/-- The canonical spelling of a path without a root. -/
def ofPath (path : String) (h : Path.isRooted path = false) : RelativePath :=
  ⟨canonical path, (isRooted_canonical path).trans h, path, rfl⟩

/-- The directory that every relative path starts from. -/
def here : RelativePath := ⟨".", rfl, ".", by decide +kernel⟩

/-- The steps on the way from the start: the components that are no dot. -/
def steps (p : RelativePath) : List String := (components p.text).filter (· ≠ ".")

/-- One path strictly contains another, as far as their texts tell. -/
def IsAbove (outer inner : RelativePath) : Prop := isProperAncestor outer.text inner.text = true

/-- Names, one or more, lead from one path down to another. -/
def Contains (outer inner : RelativePath) : Prop :=
  ∃ way, (∀ c ∈ components way, IsName c) ∧ inner.text = canonical (outer.text ++ "/" ++ way)

/-- A path that leaves the start, and does not begin by leading up. -/
def LeadsDown (p : RelativePath) : Prop := p ≠ here ∧ p.steps.head? ≠ some ".."

/-- A path that leaves the start, and only leads up. -/
def LeadsUp (p : RelativePath) : Prop := p ≠ here ∧ ∀ c ∈ p.steps, c = ".."

/-- A relative path is joined from its steps. -/
private theorem exists_steps_eq (p : RelativePath) :
    ∃ names, IsNormal false names ∧ p.text = join false names ∧ p.steps = names := by
  obtain ⟨path, hpath⟩ := p.exists_eq_canonical
  exact exists_eq_join p.isRooted hpath.symm

theorem isNormal_steps (p : RelativePath) : IsNormal false p.steps := by
  obtain ⟨names, hnormal, -, hsteps⟩ := p.exists_steps_eq
  exact hsteps ▸ hnormal

private theorem join_steps (p : RelativePath) : join false p.steps = p.text := by
  obtain ⟨names, -, htext, hsteps⟩ := p.exists_steps_eq
  rw [hsteps, htext]

@[simp] theorem steps_here : here.steps = [] := by decide +kernel

/-- Only the start is reached without a step. -/
private theorem steps_eq_nil_iff {p : RelativePath} : p.steps = [] ↔ p = here := by
  constructor
  · intro h
    ext1
    rw [← p.join_steps, h]
    rfl
  · rintro rfl
    exact steps_here

/-! ## Both relations by the steps of the paths -/

/-- No canonical path goes on behind a dot. -/
private theorem not_isAbove_here (inner : RelativePath) : ¬here.IsAbove inner := by
  intro h
  -- The text would have a dot among its components, of which a normal form has none.
  have hroot : here.text ≠ "/" := by decide
  obtain ⟨rest, htext⟩ := (isProperAncestor_iff_exists hroot).mp h
  have hdot : components here.text = ["."] := by decide +kernel
  have hpieces : components (join false inner.steps) = [] ++ ["."] ++ components rest := by
    rw [inner.join_steps, htext, components_append_slash, hdot, List.nil_append]
  have hsteps : inner.steps = ["."] ++ components rest :=
    eq_append_of_components_join inner.isNormal_steps (by simp) (components_ne_nil rest) hpieces
  exact inner.isNormal_steps.ne_dot (by simp [hsteps]) rfl

/-- By its text a path is above another if the steps of the other one go on where its own end,
    wherever they lead from there.  The start of all paths is above none. -/
theorem isAbove_iff {outer inner : RelativePath} :
    outer.IsAbove inner ↔
      outer ≠ here ∧ ∃ more, more ≠ [] ∧ inner.steps = outer.steps ++ more := by
  by_cases hhere : outer = here
  · subst hhere
    simp [not_isAbove_here]
  · have hne : outer.steps ≠ [] := mt steps_eq_nil_iff.mp hhere
    rw [IsAbove, ← outer.join_steps, ← inner.join_steps,
      isProperAncestor_join_iff outer.isNormal_steps inner.isNormal_steps hne]
    -- A proper prefix has something left behind it.
    constructor
    · rintro ⟨⟨more, hmore⟩, hproper⟩
      refine ⟨hhere, more, ?_, hmore.symm⟩
      rintro rfl
      exact hproper (by simpa using hmore)
    · rintro ⟨-, more, hmore, hsteps⟩
      rw [hsteps]
      exact ⟨List.prefix_append _ _, by simpa using hmore⟩

/-- A path contains another if the steps of the other one go on with names where its own end. -/
theorem contains_iff {outer inner : RelativePath} :
    outer.Contains inner ↔
      ∃ more, more ≠ [] ∧ (∀ c ∈ more, IsName c) ∧ inner.steps = outer.steps ++ more := by
  -- Both sides name the steps of the inner path, one in its text and one in its normal form.
  have hcanonical {way : String} (hway : ∀ c ∈ components way, IsName c) :
      canonical (outer.text ++ "/" ++ way) = join false (outer.steps ++ components way) := by
    rw [← outer.join_steps, canonical_append outer.isNormal_steps hway]
  constructor
  · rintro ⟨way, hway, htext⟩
    refine ⟨components way, components_ne_nil way, hway, ?_⟩
    rw [← inner.join_steps, hcanonical hway] at htext
    exact join_injective inner.isNormal_steps (outer.isNormal_steps.append_names hway) htext
  · rintro ⟨more, hne, hnames, hsteps⟩
    -- The names are the components of the text that they are joined to.
    have hway : components ("/".intercalate more) = more :=
      map_splitOn_intercalate hne fun c hc => (hnames c hc).no_slash
    refine ⟨"/".intercalate more, by rwa [hway], ?_⟩
    rw [hcanonical (by rwa [hway]), hway, ← hsteps, inner.join_steps]

/-- A path leads down if its steps, one or more, are all names. -/
private theorem leadsDown_iff {p : RelativePath} :
    p.LeadsDown ↔ p.steps ≠ [] ∧ ∀ c ∈ p.steps, IsName c := by
  rw [LeadsDown, Ne, ← steps_eq_nil_iff]
  refine and_congr_right fun hne => ?_
  constructor
  · intro hhead
    have hnormal : IsNormal false ([] ++ p.steps) := p.isNormal_steps
    exact hnormal.names_or_up.resolve_right fun hup => hhead hup.2
  · intro hnames hhead
    exact (hnames ".." (List.mem_of_mem_head? hhead)).ne_up rfl

/-! ## Where they part ways -/

/-- What is contained in a path without being told from the texts is what the start contains. -/
private theorem contains_and_not_isAbove_iff {outer inner : RelativePath} :
    outer.Contains inner ∧ ¬outer.IsAbove inner ↔ outer = here ∧ inner.LeadsDown := by
  constructor
  · rintro ⟨hcontains, hnot⟩
    obtain ⟨more, hne, hnames, hsteps⟩ := contains_iff.mp hcontains
    -- From any other path the steps that go on would have been told from the texts.
    have hhere : outer = here := by
      by_contra hhere
      exact hnot (isAbove_iff.mpr ⟨hhere, more, hne, hsteps⟩)
    subst hhere
    rw [steps_here, List.nil_append] at hsteps
    exact ⟨rfl, leadsDown_iff.mpr (hsteps ▸ ⟨hne, hnames⟩)⟩
  · rintro ⟨rfl, hdown⟩
    obtain ⟨hne, hnames⟩ := leadsDown_iff.mp hdown
    exact ⟨contains_iff.mpr ⟨inner.steps, hne, hnames, by simp⟩, not_isAbove_here inner⟩

/-- What is told from the texts to be inside a path, and is not, leads up where that path ends. -/
private theorem isAbove_and_not_contains_iff {outer inner : RelativePath} :
    outer.IsAbove inner ∧ ¬outer.Contains inner ↔
      outer.LeadsUp ∧ outer.steps ++ [".."] <+: inner.steps := by
  constructor
  · rintro ⟨habove, hnot⟩
    obtain ⟨hhere, more, hne, hsteps⟩ := isAbove_iff.mp habove
    have hnormal : IsNormal false (outer.steps ++ more) := hsteps ▸ inner.isNormal_steps
    -- Names behind the outer path would make it contain the inner one, so a step up is there.
    rcases hnormal.names_or_up with hnames | ⟨hup, hhead⟩
    · exact absurd (contains_iff.mpr ⟨more, hne, hnames, hsteps⟩) hnot
    · obtain ⟨others, rfl⟩ := List.head?_eq_some_iff.mp hhead
      exact ⟨⟨hhere, hup⟩, others, by simp [hsteps]⟩
  · rintro ⟨⟨hhere, -⟩, others, hsteps⟩
    rw [List.append_assoc] at hsteps
    refine ⟨isAbove_iff.mpr ⟨hhere, _, by simp, hsteps.symm⟩, fun hcontains => ?_⟩
    -- The same steps cannot be names and begin with a step up.
    obtain ⟨more, -, hnames, hmore⟩ := contains_iff.mp hcontains
    obtain rfl : [".."] ++ others = more := List.append_cancel_left (hsteps.trans hmore)
    exact (hnames ".." (by simp)).ne_up rfl

/-- By its text a relative path is above another one exactly if names lead down to that one from it,
    unless the path is the start, which by its text is above none but contains all that lead down,
    or the path only leads up, and the other one leads up further. -/
theorem isAbove_iff_contains (outer inner : RelativePath) :
    ((outer.IsAbove inner ↔ outer.Contains inner) ↔
        ¬(outer = here ∧ inner.LeadsDown) ∧
          ¬(outer.LeadsUp ∧ outer.steps ++ [".."] <+: inner.steps)) ∧
      (outer.Contains inner ∧ ¬outer.IsAbove inner ↔ outer = here ∧ inner.LeadsDown) ∧
      (outer.IsAbove inner ∧ ¬outer.Contains inner ↔
        outer.LeadsUp ∧ outer.steps ++ [".."] <+: inner.steps) := by
  refine ⟨?_, contains_and_not_isAbove_iff, isAbove_and_not_contains_iff⟩
  rw [← contains_and_not_isAbove_iff, ← isAbove_and_not_contains_iff]
  tauto

/-- A name lies in the start of all paths, and the directory two levels up does not lie in the one
    above the start.  Their texts say the opposite of both. -/
theorem not_isAbove_iff_contains :
    let down := ofPath "a" rfl
    let up := ofPath ".." rfl
    let upTwice := ofPath "../.." rfl
    (here.Contains down ∧ ¬here.IsAbove down) ∧ up.IsAbove upTwice ∧ ¬up.Contains upTwice := by
  intro down up upTwice
  have hdown : down ≠ here := fun h => absurd (congrArg text h) (by decide +kernel)
  have hup : up ≠ here := fun h => absurd (congrArg text h) (by decide +kernel)
  have hfirst : down.steps.head? ≠ some ".." := by decide +kernel
  have hsteps : up.steps = [".."] := by decide +kernel
  have honly : ∀ c ∈ up.steps, c = ".." := by simp [hsteps]
  have hfurther : up.steps ++ [".."] <+: upTwice.steps := by decide +kernel
  exact ⟨contains_and_not_isAbove_iff.mpr ⟨rfl, hdown, hfirst⟩,
    isAbove_and_not_contains_iff.mpr ⟨⟨hup, honly⟩, hfurther⟩⟩

end RelativePath

end ContainerAudit.Path
