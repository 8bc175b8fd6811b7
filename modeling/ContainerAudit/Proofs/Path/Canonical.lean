import ContainerAudit.Path.Lexical
import ContainerAudit.Proofs.List

/-!
# The canonical spelling of a path

`Path.canonical` splits a path at its slashes, follows the pieces with a stack of names and joins
what is left.  `IsNormal` describes what can be left, and following a piece keeps a stack in that
form.  A path that is joined from components in normal form is split into the same components
again, so canonical paths are those that are their own canonical spelling.

## Key results

- `isNormal_normalForm`: what is left of a path is in normal form
- `normalForm_of_isNormal`: a normal form is its own normal form
- `canonical_join`: a path joined from a normal form is canonical
- `canonical_canonical`: `canonical` is idempotent
- `isCanonical_canonical`, `isCanonical_iff`: the texts that canonical paths are
-/

namespace ContainerAudit.Path

/-- The name of a file or directory: a component that leads one step down. -/
structure IsName (c : String) : Prop where
  ne_empty : c ≠ ""
  ne_dot : c ≠ "."
  ne_up : c ≠ ".."
  no_slash : '/' ∉ c.toList

/-- Components in normal form: steps up out of the start of a path without a root, and then
    names. -/
def IsNormal (rooted : Bool) (components : List String) : Prop :=
  ∃ ups names, components = List.replicate ups ".." ++ names ∧ (rooted = true → ups = 0) ∧
    ∀ c ∈ names, IsName c

theorem isNormal_nil (rooted : Bool) : IsNormal rooted [] :=
  ⟨0, [], rfl, fun _ => rfl, by simp⟩

/-- No component in normal form is empty or holds a slash. -/
theorem IsNormal.piece {rooted : Bool} {components : List String} {c : String}
    (h : IsNormal rooted components) (hc : c ∈ components) : c ≠ "" ∧ '/' ∉ c.toList := by
  obtain ⟨ups, names, rfl, -, hnames⟩ := h
  rcases List.mem_append.mp hc with hc | hc
  · rw [List.eq_of_mem_replicate hc]
    decide
  · exact ⟨(hnames c hc).ne_empty, (hnames c hc).no_slash⟩

theorem IsNormal.ne_dot {rooted : Bool} {components : List String} {c : String}
    (h : IsNormal rooted components) (hc : c ∈ components) : c ≠ "." := by
  obtain ⟨ups, names, rfl, -, hnames⟩ := h
  rcases List.mem_append.mp hc with hc | hc
  · rw [List.eq_of_mem_replicate hc]
    decide
  · exact (hnames c hc).ne_dot

/-! ## Following components -/

/-- A name goes on top of the stack. -/
theorem follow_name {rooted : Bool} {stack : List String} {c : String} (hc : IsName c) :
    follow rooted stack c = c :: stack := by
  unfold follow
  rw [if_neg (by simp [hc.ne_empty, hc.ne_dot]), if_neg hc.ne_up]

/-- Following a component keeps a stack in normal form, read from its bottom. -/
theorem isNormal_follow {rooted : Bool} {stack : List String} {c : String}
    (hc : '/' ∉ c.toList) (h : IsNormal rooted stack.reverse) :
    IsNormal rooted (follow rooted stack c).reverse := by
  unfold follow
  -- An empty piece or a dot leaves the stack alone; the way up takes a name off it or is kept;
  -- anything else is a name.
  split
  · exact h
  · rename_i hdot
    obtain ⟨ups, names, heq, hups, hnames⟩ := h
    split
    · -- The way up: the shape of the stack decides what is at its top.
      rcases List.eq_nil_or_concat names with rfl | ⟨lower, top, rfl⟩
      · rw [List.append_nil, List.reverse_eq_iff, List.reverse_replicate] at heq
        subst heq
        cases ups with
        | zero =>
          cases rooted with
          | true => exact isNormal_nil true
          | false => exact ⟨1, [], by simp, by simp, by simp⟩
        | succ n =>
          have hroot : rooted ≠ true := fun hr => by simpa using hups hr
          refine ⟨n + 2, [], ?_, fun hr => absurd hr hroot, by simp⟩
          simp [List.replicate_succ, ← List.replicate_succ']
      · have htop : top ≠ ".." := (hnames top (by simp)).ne_up
        have hstack : stack = top :: (lower.reverse ++ List.replicate ups "..") := by
          rw [List.reverse_eq_iff] at heq
          simpa using heq
        subst hstack
        simp only [if_neg htop]
        exact ⟨ups, lower, by simp, hups, fun c hc => hnames c (by simp [hc])⟩
    · rename_i hup
      have hname : IsName c := ⟨fun h => hdot (.inl h), fun h => hdot (.inr h), hup, hc⟩
      refine ⟨ups, names ++ [c], by simp [heq], hups, fun c' hc' => ?_⟩
      rcases List.mem_append.mp hc' with hc' | hc'
      · exact hnames c' hc'
      · rwa [List.mem_singleton.mp hc']

/-- Following several components keeps a stack in normal form. -/
private theorem isNormal_foldl_follow {rooted : Bool} {components stack : List String}
    (hc : ∀ c ∈ components, '/' ∉ c.toList) (h : IsNormal rooted stack.reverse) :
    IsNormal rooted (components.foldl (follow rooted) stack).reverse := by
  induction components generalizing stack with
  | nil => exact h
  | cons c rest ih =>
    rw [List.foldl_cons]
    exact ih (fun c' hc' => hc c' (List.mem_cons_of_mem _ hc'))
      (isNormal_follow (hc c List.mem_cons_self) h)

/-- Whatever the components are, what is left of them is in normal form. -/
theorem isNormal_normalForm {rooted : Bool} {components : List String}
    (hc : ∀ c ∈ components, '/' ∉ c.toList) : IsNormal rooted (normalForm rooted components) :=
  isNormal_foldl_follow hc (isNormal_nil rooted)

/-- Following names puts them all on the stack. -/
theorem foldl_follow_names {rooted : Bool} {names stack : List String}
    (h : ∀ c ∈ names, IsName c) :
    names.foldl (follow rooted) stack = names.reverse ++ stack := by
  induction names generalizing stack with
  | nil => rfl
  | cons c rest ih =>
    rw [List.foldl_cons, follow_name (h c List.mem_cons_self),
      ih fun c' hc' => h c' (List.mem_cons_of_mem _ hc')]
    simp

/-- Without a root, all steps up from the start stay. -/
private theorem foldl_follow_ups (n m : Nat) :
    (List.replicate n "..").foldl (follow false) (List.replicate m "..") =
      List.replicate (m + n) ".." := by
  induction n generalizing m with
  | zero => rfl
  | succ n ih =>
    have hstep : follow false (List.replicate m "..") ".." = List.replicate (m + 1) ".." := by
      cases m <;> simp [follow, List.replicate_succ]
    rw [List.replicate_succ, List.foldl_cons, hstep, ih]
    congr 1
    omega

/-- All of a normal form is left. -/
theorem normalForm_of_isNormal {rooted : Bool} {components : List String}
    (h : IsNormal rooted components) : normalForm rooted components = components := by
  obtain ⟨ups, names, rfl, hups, hnames⟩ := h
  have hstart : (List.replicate ups "..").foldl (follow rooted) [] = List.replicate ups ".." := by
    cases rooted with
    | true => simp [hups rfl]
    | false => simpa using foldl_follow_ups ups 0
  -- The steps up lie at the bottom of the stack, and the names go on top of them.
  rw [normalForm, List.foldl_append, hstart, foldl_follow_names hnames]
  simp

/-! ## Splitting and joining -/

/-- A path is split at all of its slashes. -/
theorem no_slash_of_mem_components {path c : String} (h : c ∈ components path) :
    '/' ∉ c.toList := by
  obtain ⟨piece, hpiece, rfl⟩ := List.mem_map.mp h
  simpa using List.not_mem_of_mem_splitOn hpiece

/-- Joining the pieces of a path gives the path back. -/
theorem intercalate_components (path : String) : "/".intercalate (components path) = path := by
  rw [← String.toList_inj, String.toList_intercalate]
  simp [components, Function.comp_def, List.intercalate_splitOn]

/-- What is left of any path is in normal form. -/
theorem isNormal_components (rooted : Bool) (path : String) :
    IsNormal rooted (normalForm rooted (components path)) :=
  isNormal_normalForm fun _ => no_slash_of_mem_components

/-- Joining components without slashes and splitting the text gives the components back. -/
theorem map_splitOn_intercalate {components : List String} (hne : components ≠ [])
    (h : ∀ c ∈ components, '/' ∉ c.toList) :
    (("/".intercalate components).toList.splitOn '/').map String.ofList = components := by
  have hsplit : (['/'].intercalate (components.map String.toList)).splitOn '/' =
      components.map String.toList :=
    List.splitOn_intercalate '/' (by simpa using h) (by simpa using hne)
  rw [String.toList_intercalate]
  simp only [String.reduceToList, hsplit, List.map_map]
  simp

/-- Components, if there are any, are joined by slashes behind that of the root. -/
theorem join_of_ne_nil {rooted : Bool} {names : List String} (hne : names ≠ []) :
    join rooted names = (if rooted then "/" else "") ++ "/".intercalate names := by
  cases rooted <;> simp [join, hne]

/-- Joining components in normal form, if there are any, and splitting the path gives them back.
    The slash of the root leaves an empty piece in front. -/
theorem components_join {rooted : Bool} {names : List String} (hne : names ≠ [])
    (h : IsNormal rooted names) :
    components (join rooted names) = (if rooted then [""] else []) ++ names := by
  have hsplit : (("/".intercalate names).toList.splitOn '/').map String.ofList = names :=
    map_splitOn_intercalate hne fun c hc => (h.piece hc).2
  cases rooted with
  | true => simpa [components, join, List.splitOn_cons_eq_if_modifyHead] using hsplit
  | false => simpa [components, join, hne] using hsplit

/-- Splitting a path that was joined from a normal form leaves that normal form. -/
theorem normalForm_components_join {rooted : Bool} {names : List String}
    (h : IsNormal rooted names) : normalForm rooted (components (join rooted names)) = names := by
  by_cases hne : names = []
  · subst hne
    cases rooted <;> decide
  · rw [components_join hne h]
    -- An empty piece in front is passed over.
    have hskip : normalForm rooted ((if rooted then [""] else []) ++ names) =
        normalForm rooted names := by
      cases rooted <;> rfl
    rw [hskip, normalForm_of_isNormal h]

/-- Normal forms that are joined to the same path are the same. -/
theorem join_injective {rooted : Bool} {names names' : List String} (h : IsNormal rooted names)
    (h' : IsNormal rooted names') (heq : join rooted names = join rooted names') :
    names = names' := by
  rw [← normalForm_components_join h, heq, normalForm_components_join h']

/-- A path that was joined from a normal form keeps its root, or its lack of one. -/
theorem isRooted_join {rooted : Bool} {names : List String} (h : IsNormal rooted names) :
    isRooted (join rooted names) = rooted := by
  cases rooted with
  | true => simp [isRooted, join]
  | false =>
    cases names with
    | nil => decide
    | cons first rest =>
      -- The text starts with the first character of its first component.
      obtain ⟨hne, hslash⟩ := h.piece List.mem_cons_self
      obtain ⟨c, cs, hfirst⟩ := List.exists_cons_of_ne_nil
        (fun hnil => hne (String.toList_eq_nil_iff.mp hnil))
      have hc : c ≠ '/' := fun hc => hslash (by simp [hfirst, hc])
      simp [isRooted, join, hfirst, hc]

/-! ## Canonical paths -/

/-- A path that was joined from a normal form stands in its canonical spelling. -/
theorem canonical_join {rooted : Bool} {names : List String} (h : IsNormal rooted names) :
    canonical (join rooted names) = join rooted names := by
  rw [canonical, isRooted_join h, normalForm_components_join h]

theorem isRooted_canonical (path : String) : isRooted (canonical path) = isRooted path :=
  isRooted_join (isNormal_components _ path)

/-- A canonical spelling is its own one. -/
theorem canonical_canonical (path : String) : canonical (canonical path) = canonical path :=
  canonical_join (isNormal_components _ path)

/-- The texts that stand in their canonical spelling. -/
inductive IsCanonical : String → Prop where
  /-- The start of a path that has no root. -/
  | here : IsCanonical "."
  | root : IsCanonical "/"
  /-- Steps up, of which there are none below the root, and names, joined by single slashes. -/
  | steps {rooted : Bool} {components : List String} (hne : components ≠ [])
      (h : IsNormal rooted components) :
    IsCanonical ((if rooted then "/" else "") ++ "/".intercalate components)

/-- What is joined from a normal form is a canonical path. -/
private theorem isCanonical_join {rooted : Bool} {names : List String} (h : IsNormal rooted names) :
    IsCanonical (join rooted names) := by
  by_cases hne : names = []
  · subst hne
    cases rooted with
    | true => exact .root
    | false => exact .here
  · exact join_of_ne_nil hne ▸ .steps hne h

theorem isCanonical_canonical (path : String) : IsCanonical (canonical path) :=
  isCanonical_join (isNormal_components _ path)

/-- The canonical paths are those that are joined from a normal form. -/
theorem IsCanonical.exists_join {path : String} (h : IsCanonical path) :
    ∃ names, IsNormal (isRooted path) names ∧ path = join (isRooted path) names := by
  cases h with
  | here => exact ⟨[], isNormal_nil false, by decide⟩
  | root => exact ⟨[], isNormal_nil true, by decide⟩
  | @steps rooted names hne h =>
    rw [← join_of_ne_nil hne, isRooted_join h]
    exact ⟨names, h, rfl⟩

/-- The canonical paths are those that are their own canonical spelling. -/
theorem isCanonical_iff {path : String} : IsCanonical path ↔ canonical path = path := by
  constructor
  · intro h
    obtain ⟨names, hnormal, heq⟩ := h.exists_join
    rw [heq]
    exact canonical_join hnormal
  · intro h
    exact h ▸ isCanonical_canonical path

end ContainerAudit.Path
