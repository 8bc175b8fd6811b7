import ContainerAudit.Proofs.Files.Walk

/-!
# Where a path name leads nowhere

A way through a file tree can break off at a name that leads nowhere, and it can come to more links
than a walk follows.  Both are relations like `FileTree.Leads`, and a walk that fails has met with
one of them: the error says why the way broke off, or that there were too many links.  So the error
of a path name that cannot be resolved is one about the tree, not about the walk.

## Key results

- `walk_eq_error_iff`: the errors of a walk that follows links to the end
- `resolve_of_breaksOff`: what comes of a path name whose way breaks off
- `WithinLimits.cases`: a path name within the limits leads to a place, or its way breaks off
-/

namespace ContainerAudit.FileTree

open Text (Bytes)

variable {t : FileTree} {place : Place} {path : Bytes} {names : List Bytes} {links : Nat}
  {e : Errno}

/-- Names lead from a place through a number of links to a name that leads nowhere. -/
inductive Breaks (t : FileTree) : Nat → Place → List Bytes → Errno → Prop where
  | stop {place : Place} {name : Bytes} {rest : List Bytes} {e : Errno}
    (hstops : t.Stops place name e) : Breaks t 0 place (name :: rest) e
  | go {links : Nat} {place next : Place} {name : Bytes} {rest : List Bytes} {e : Errno}
    (hgoes : t.Goes place name next) (h : Breaks t links next rest e) :
    Breaks t links place (name :: rest) e
  | follow {links : Nat} {place : Place} {name target : Bytes} {rest : List Bytes} {e : Errno}
    (hlink : t.LinksTo place name target)
    (h : Breaks t links (startOf place target) (target.splitOn Path.slash ++ rest) e) :
    Breaks t (links + 1) place (name :: rest) e

/-- Names lead from a place through a number of links, wherever they lead then. -/
inductive Meets (t : FileTree) : Nat → Place → List Bytes → Prop where
  | none (place : Place) (names : List Bytes) : Meets t 0 place names
  | go {links : Nat} {place next : Place} {name : Bytes} {rest : List Bytes}
    (hgoes : t.Goes place name next) (h : Meets t links next rest) :
    Meets t links place (name :: rest)
  | follow {links : Nat} {place : Place} {name target : Bytes} {rest : List Bytes}
    (hlink : t.LinksTo place name target)
    (h : Meets t links (startOf place target) (target.splitOn Path.slash ++ rest)) :
    Meets t (links + 1) place (name :: rest)

/-! ## Walks that fail -/

/-- A walk fails where the way breaks off, if it gets there. -/
private theorem walk_of_breaks {n : Nat} (h : t.Breaks n place names e) (hn : n ≤ links) :
    t.walk true links place names = .error e := by
  induction h generalizing links with
  | stop hstops => exact walk_of_stops hstops true
  | go hgoes _ ih => rw [walk_of_goes hgoes, ih hn]
  | @follow n place name target rest e hlink _ ih =>
    obtain ⟨links, rfl⟩ : ∃ fewer, links = fewer + 1 := ⟨links - 1, by omega⟩
    rw [walk_succ_of_linksTo hlink fun _ => rfl, ih (by omega)]

/-- A walk fails if its way has one link more than it may follow. -/
private theorem walk_of_meets (h : t.Meets (links + 1) place names) :
    t.walk true links place names = .error .loop := by
  generalize hmany : links + 1 = many at h
  induction h generalizing links with
  | none place names => omega
  | go hgoes _ ih => rw [walk_of_goes hgoes, ih hmany]
  | @follow n place name target rest hlink _ ih =>
    obtain rfl : links = n := by omega
    -- The walk gives up at the link that it may not follow, or at a later one.
    cases links with
    | zero => exact walk_zero_of_linksTo hlink fun _ => rfl
    | succ links => rw [walk_succ_of_linksTo hlink fun _ => rfl, ih rfl]

/-- A walk that follows links to the end fails where the way breaks off behind at most so many
    links, or at one link more. -/
theorem walk_eq_error_iff :
    t.walk true links place names = .error e ↔
      (∃ n ≤ links, t.Breaks n place names e) ∨ e = .loop ∧ t.Meets (links + 1) place names := by
  constructor
  · intro h
    -- As for the walks that arrive, the induction is on the links and then on the names.
    induction links using Nat.strongRecOn generalizing place names with
    | ind links ihlinks =>
      induction names generalizing place with
      | nil =>
        rw [walk_nil] at h
        cases h
      | cons name rest ihnames =>
        rcases t.goes_linksTo_or_stops place name with
          ⟨next, hgoes⟩ | ⟨target, hlink⟩ | ⟨e', hstops⟩
        · rw [walk_of_goes hgoes] at h
          rcases ihnames h with ⟨n, hn, hbreaks⟩ | ⟨hloop, hmeets⟩
          · exact .inl ⟨n, hn, .go hgoes hbreaks⟩
          · exact .inr ⟨hloop, .go hgoes hmeets⟩
        · cases links with
          | zero =>
            rw [walk_zero_of_linksTo hlink fun _ => rfl] at h
            exact .inr ⟨(Except.error.inj h).symm, .follow hlink (.none _ _)⟩
          | succ links =>
            rw [walk_succ_of_linksTo hlink fun _ => rfl] at h
            rcases ihlinks links (Nat.lt_succ_self links) h with ⟨n, hn, hbreaks⟩ | ⟨hloop, hmeets⟩
            · exact .inl ⟨n + 1, Nat.succ_le_succ hn, .follow hlink hbreaks⟩
            · exact .inr ⟨hloop, .follow hlink hmeets⟩
        · rw [walk_of_stops hstops] at h
          obtain rfl := Except.error.inj h
          exact .inl ⟨0, Nat.zero_le links, .stop hstops⟩
  · rintro (⟨n, hn, hbreaks⟩ | ⟨rfl, hmeets⟩)
    · exact walk_of_breaks hbreaks hn
    · exact walk_of_meets hmeets

/-- There are three reasons for a way to break off, and the number of links is none of them. -/
theorem Breaks.errno {n : Nat} (h : t.Breaks n place names e) :
    e = .noEntry ∨ e = .notDirectory ∨ e = .nameTooLong := by
  induction h with
  | stop hstops =>
    cases hstops with
    | blocked => exact .inr (.inl rfl)
    | missing => exact .inl rfl
    | tooLong => exact .inr (.inr rfl)
  | go _ _ ih => exact ih
  | follow _ _ ih => exact ih

/-- Too many links are the only reason for a walk to give up with that error. -/
private theorem meets_iff :
    t.Meets (links + 1) place names ↔ t.walk true links place names = .error .loop := by
  constructor
  · exact walk_of_meets
  · intro h
    rcases walk_eq_error_iff.mp h with ⟨n, -, hbreaks⟩ | ⟨-, hmeets⟩
    · exact absurd hbreaks.errno (by decide)
    · exact hmeets

/-! ## Path names -/

/-- The way of a path name breaks off. -/
structure BreaksOff (t : FileTree) (path : Bytes) (e : Errno) : Prop where
  isPathName : IsPathName path
  breaks : ∃ n ≤ maxLinks, t.Breaks n (startOf t.cwd path) (path.splitOn Path.slash) e

/-- The way of a path name breaks off exactly if the walk along its names fails, too many links
    apart. -/
theorem breaksOff_iff (he : e ≠ .loop) :
    t.BreaksOff path e ↔ IsPathName path ∧
      t.walk true maxLinks (startOf t.cwd path) (path.splitOn Path.slash) = .error e := by
  constructor
  · intro h
    exact ⟨h.isPathName, walk_eq_error_iff.mpr (.inl h.breaks)⟩
  · rintro ⟨hpath, hwalk⟩
    rcases walk_eq_error_iff.mp hwalk with hbreaks | ⟨hloop, -⟩
    · exact ⟨hpath, hbreaks⟩
    · exact absurd hloop he

/-- A path name whose way breaks off is not resolved, and the error tells the reason. -/
theorem resolve_of_breaksOff (h : t.BreaksOff path e) :
    t.resolve true path = .error (.ofErrno e) := by
  obtain ⟨n, hn, hbreaks⟩ := h.breaks
  rw [resolve, checkName_eq_ok_iff.mpr h.isPathName, walk_of_breaks hbreaks hn]
  rfl

/-- A way that arrives does not break off. -/
theorem LeadsTo.not_breaksOff (h : t.LeadsTo path place) : ¬t.BreaksOff path e := by
  intro hbreaks
  have hwalk := walk_eq_error_iff.mpr (.inl hbreaks.breaks)
  rw [walk_eq_ok_iff.mpr h.reaches] at hwalk
  cases hwalk

/-- A path name that can be followed to its end: it has no zero byte, and neither it nor a name in
    it or in the target of a link is too long, and there are not too many links. -/
structure WithinLimits (t : FileTree) (path : Bytes) : Prop where
  zero_not_mem : 0 ∉ path
  length_lt : path.length < maxPath
  names : ¬t.BreaksOff path .nameTooLong
  links : ¬t.Meets (maxLinks + 1) (startOf t.cwd path) (path.splitOn Path.slash)

/-- Within the limits a path name leads to a place unless it is empty or its way breaks off where a
    name is missing or stands behind a file that is no directory. -/
theorem WithinLimits.cases (h : t.WithinLimits path) :
    (∃ place, t.LeadsTo path place) ∨ path = [] ∨ t.BreaksOff path .noEntry ∨
      t.BreaksOff path .notDirectory := by
  by_cases hempty : path = []
  · exact .inr (.inl hempty)
  have hpath : IsPathName path := ⟨h.zero_not_mem, hempty, h.length_lt⟩
  -- A walk that fails has met with one of four errors, and the limits exclude two of them.
  cases hwalk : t.walk true maxLinks (startOf t.cwd path) (path.splitOn Path.slash) with
  | ok place => exact .inl ⟨place, hpath, walk_eq_ok_iff.mp hwalk⟩
  | error e =>
    rcases walk_eq_error_iff.mp hwalk with hbreaks | ⟨-, hmeets⟩
    · have herrno : e = .noEntry ∨ e = .notDirectory ∨ e = .nameTooLong := by
        obtain ⟨n, -, hbreak⟩ := hbreaks
        exact hbreak.errno
      rcases herrno with rfl | rfl | rfl
      · exact .inr (.inr (.inl ⟨hpath, hbreaks⟩))
      · exact .inr (.inr (.inr ⟨hpath, hbreaks⟩))
      · exact absurd ⟨hpath, hbreaks⟩ h.names
    · exact absurd hmeets h.links

/-- The limits in terms of walks, which can be computed. -/
private theorem withinLimits_iff :
    t.WithinLimits path ↔ 0 ∉ path ∧ path.length < maxPath ∧
      (path = [] ∨
        t.walk true maxLinks (startOf t.cwd path) (path.splitOn Path.slash) ≠
          .error .nameTooLong) ∧
      t.walk true maxLinks (startOf t.cwd path) (path.splitOn Path.slash) ≠ .error .loop := by
  have hnames : t.BreaksOff path .nameTooLong ↔ _ := breaksOff_iff (by decide)
  -- The way of the empty path name counts for nothing, so its walk is not asked.
  constructor
  · intro h
    refine ⟨h.zero_not_mem, h.length_lt, ?_, mt meets_iff.mpr h.links⟩
    by_cases hempty : path = []
    · exact .inl hempty
    · exact .inr fun hwalk =>
        h.names (hnames.mpr ⟨⟨h.zero_not_mem, hempty, h.length_lt⟩, hwalk⟩)
  · rintro ⟨hzero, hlength, hlong, hloop⟩
    refine ⟨hzero, hlength, fun hbreaks => ?_, mt meets_iff.mp hloop⟩
    obtain ⟨hpath, hwalk⟩ := hnames.mp hbreaks
    rcases hlong with hempty | hlong
    · exact hpath.ne_empty hempty
    · exact hlong hwalk

instance (t : FileTree) (path : Bytes) : Decidable (t.WithinLimits path) :=
  decidable_of_iff _ withinLimits_iff.symm

end ContainerAudit.FileTree
