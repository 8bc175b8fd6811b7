import ContainerAudit.Files.Tree
import ContainerAudit.Proofs.Entries
import ContainerAudit.Proofs.List

/-!
# Where a path name leads

A way through a file tree as a relation: a name leads from a directory to a place in it, or it is
that of a link, and then the way goes on along the names of the link's target.  `FileTree.walk`
finds such ways, and only those with few enough links.  A way remains one if files come to the
tree.

## Key results

- `goes_linksTo_or_stops`: what a name can be at a place
- `walk_append`: a walk goes on from the place that its first names lead to
- `walk_eq_ok_iff`: a walk that follows links to the end is a way
- `Leads.mono`: files that come to a tree do not change a way in it
- `resolve_true_eq_ok_iff`: a path name is resolved to the file that it leads to
- `IsPlain.isDirectoryOrRegular_of_leadsTo`: a way never ends at a link
-/

namespace ContainerAudit

open Text (Bytes)

/-- A directory, a regular file or a link. -/
def FileNode.isPlain : FileNode → Bool
  | directory _ | regular _ _ | link _ => true
  | fifo _ | nullDevice _ => false

namespace FileTree

variable {t t' : FileTree} {place next goal parent : Place} {name last : Bytes}
  {rest names more : List Bytes} {links : Nat}

/-- A computation in two parts has a result exactly if the second part has it on the result of the
    first. -/
theorem bind_eq_ok_iff {ε α β : Type} {x : Except ε α} {f : α → Except ε β} {b : β} :
    x >>= f = .ok b ↔ ∃ a, x = .ok a ∧ f a = .ok b := by
  cases x with
  | error e => simp [bind, Except.bind]
  | ok a => simp [bind, Except.bind]

/-- Another spelling of the errors leaves the results alone. -/
theorem mapError_eq_ok_iff {ε ε' α : Type} {x : Except ε α} {f : ε → ε'} {a : α} :
    x.mapError f = .ok a ↔ x = .ok a := by
  cases x <;> simp [Except.mapError]

/-- There is a directory at a place. -/
def IsDirectory (t : FileTree) (place : Place) : Prop :=
  (t.node? place).any FileNode.isDirectory = true

instance (t : FileTree) (place : Place) : Decidable (t.IsDirectory place) :=
  inferInstanceAs (Decidable (_ = true))

/-- A directory is found there, with some mode. -/
theorem isDirectory_iff : t.IsDirectory place ↔ ∃ mode, t.node? place = some (.directory mode) := by
  rw [IsDirectory, Option.any_eq_true]
  constructor
  · rintro ⟨node, hnode, hdirectory⟩
    cases node with
    | directory mode => exact ⟨mode, hnode⟩
    | _ => contradiction
  · rintro ⟨mode, hnode⟩
    exact ⟨_, hnode, rfl⟩

/-- A name that a file can have in a directory. -/
structure IsEntryName (name : Bytes) : Prop where
  ne_empty : name ≠ []
  ne_dot : name ≠ [Path.dot]
  ne_up : name ≠ [Path.dot, Path.dot]
  length_le : name.length ≤ maxName

/-- A name leads from a directory to a place, without a link. -/
inductive Goes (t : FileTree) (place : Place) (name : Bytes) : Place → Prop where
  | stay (hdir : t.IsDirectory place) (hname : name = [] ∨ name = [Path.dot]) :
    Goes t place name place
  | up (hdir : t.IsDirectory place) (hname : name = [Path.dot, Path.dot]) :
    Goes t place name place.tail
  | down {node : FileNode} (hdir : t.IsDirectory place) (hname : IsEntryName name)
    (hnode : t.node? (name :: place) = some node) (hlink : ∀ target, node ≠ .link target) :
    Goes t place name (name :: place)

/-- A name in a directory is that of a link. -/
structure LinksTo (t : FileTree) (place : Place) (name target : Bytes) : Prop where
  isDirectory : t.IsDirectory place
  isEntryName : IsEntryName name
  node?_eq : t.node? (name :: place) = some (.link target)

/-- A name leads nowhere from a place, and why. -/
inductive Stops (t : FileTree) (place : Place) (name : Bytes) : Errno → Prop where
  /-- Names lead on from directories only. -/
  | blocked (hdir : ¬t.IsDirectory place) : Stops t place name .notDirectory
  | missing (hdir : t.IsDirectory place) (hname : IsEntryName name)
    (hnode : t.node? (name :: place) = none) : Stops t place name .noEntry
  | tooLong (hdir : t.IsDirectory place) (hlength : maxName < name.length) :
    Stops t place name .nameTooLong

/-- Names lead from a place to another one through a number of links. -/
inductive Leads (t : FileTree) : Nat → Place → List Bytes → Place → Prop where
  | here (place : Place) : Leads t 0 place [] place
  | go {links : Nat} {place next goal : Place} {name : Bytes} {rest : List Bytes}
    (hgoes : t.Goes place name next) (h : Leads t links next rest goal) :
    Leads t links place (name :: rest) goal
  | follow {links : Nat} {place goal : Place} {name target : Bytes} {rest : List Bytes}
    (hlink : t.LinksTo place name target)
    (h : Leads t links (startOf place target) (target.splitOn Path.slash ++ rest) goal) :
    Leads t (links + 1) place (name :: rest) goal

/-! ## One name -/

/-- A name that leads on is taken off the list, and the search goes on from its place. -/
private theorem advance_of_goes (h : t.Goes place name next) (follow : Bool) :
    t.advance follow place (name :: rest) = t.advance follow next rest := by
  cases h with
  | stay hdir hname =>
    obtain ⟨mode, hmode⟩ := isDirectory_iff.mp hdir
    rw [advance, hmode]
    simp only [hname, if_true]
  | up hdir hname =>
    obtain ⟨mode, hmode⟩ := isDirectory_iff.mp hdir
    rw [advance, hmode]
    simp [hname]
  | @down node hdir hname hnode hlink =>
    obtain ⟨mode, hmode⟩ := isDirectory_iff.mp hdir
    rw [advance, hmode]
    -- The name is none of the special ones, and the file that has it is no link.
    simp only [hname.ne_empty, hname.ne_dot, hname.ne_up, or_self, if_false,
      Nat.not_lt_of_le hname.length_le, hnode]

/-- The search stops at the name of a link. At the end of a list it hands out the place of the link
    itself if that is not to be followed, and otherwise the target with the names that are left. -/
private theorem advance_of_linksTo {target : Bytes} (h : t.LinksTo place name target)
    (follow : Bool) :
    t.advance follow place (name :: rest) =
      if rest = [] ∧ !follow then .ok (.place (name :: place))
      else .ok (.link place target rest) := by
  obtain ⟨hdir, hname, hnode⟩ := h
  obtain ⟨mode, hmode⟩ := isDirectory_iff.mp hdir
  rw [advance, hmode]
  simp only [hname.ne_empty, hname.ne_dot, hname.ne_up, or_self, if_false,
    Nat.not_lt_of_le hname.length_le, hnode]

/-- A link that is to be followed is handed out with the names that are left. -/
private theorem advance_eq_link {target : Bytes} {follow : Bool} (h : t.LinksTo place name target)
    (hfollow : rest = [] → follow = true) :
    t.advance follow place (name :: rest) = .ok (.link place target rest) := by
  rw [advance_of_linksTo h, if_neg]
  rintro ⟨hrest, hfalse⟩
  simp [hfollow hrest] at hfalse

/-- The search fails at a name that leads nowhere, for the reason that the name has. -/
private theorem advance_of_stops {e : Errno} (h : t.Stops place name e) (follow : Bool) :
    t.advance follow place (name :: rest) = .error e := by
  cases h with
  | blocked hdir =>
    rw [advance]
    split
    · rename_i mode hmode
      exact absurd (isDirectory_iff.mpr ⟨mode, hmode⟩) hdir
    · rfl
  | missing hdir hname hnode =>
    obtain ⟨mode, hmode⟩ := isDirectory_iff.mp hdir
    rw [advance, hmode]
    simp only [hname.ne_empty, hname.ne_dot, hname.ne_up, or_self, if_false,
      Nat.not_lt_of_le hname.length_le, hnode]
  | tooLong hdir hlength =>
    obtain ⟨mode, hmode⟩ := isDirectory_iff.mp hdir
    -- A special name is short, so one that is too long is none of them.
    have hlong (short : Bytes) (hshort : short.length ≤ maxName) : name ≠ short := by
      intro heq
      exact absurd hlength (Nat.not_lt_of_le (heq ▸ hshort))
    rw [advance, hmode]
    simp only [hlong [] (by decide), hlong [Path.dot] (by decide),
      hlong [Path.dot, Path.dot] (by decide), or_self, if_false, hlength, if_true]

/-- A name leads on, or is that of a link, or leads nowhere. -/
theorem goes_linksTo_or_stops (t : FileTree) (place : Place) (name : Bytes) :
    (∃ next, t.Goes place name next) ∨ (∃ target, t.LinksTo place name target) ∨
      ∃ e, t.Stops place name e := by
  by_cases hdir : t.IsDirectory place
  · by_cases hstay : name = [] ∨ name = [Path.dot]
    · exact .inl ⟨place, .stay hdir hstay⟩
    by_cases hup : name = [Path.dot, Path.dot]
    · exact .inl ⟨place.tail, .up hdir hup⟩
    by_cases hlength : maxName < name.length
    · exact .inr (.inr ⟨_, .tooLong hdir hlength⟩)
    obtain ⟨hempty, hdot⟩ := not_or.mp hstay
    have hname : IsEntryName name := ⟨hempty, hdot, hup, Nat.le_of_not_lt hlength⟩
    -- What is left of the name is what it stands for in the directory.
    cases hnode : t.node? (name :: place) with
    | none => exact .inr (.inr ⟨_, .missing hdir hname hnode⟩)
    | some node =>
      cases node with
      | link target => exact .inr (.inl ⟨target, hdir, hname, hnode⟩)
      | _ => exact .inl ⟨_, .down hdir hname hnode (by simp)⟩
  · exact .inr (.inr ⟨_, .blocked hdir⟩)

/-! ## Walks -/

/-- One round of a walk: it advances to a link, and follows it if it may follow one more. -/
theorem walk_eq (follow : Bool) :
    t.walk follow links place names =
      match t.advance follow place names, links with
      | .error e, _ => .error e
      | .ok (.place place), _ => .ok place
      | .ok (.link _ _ _), 0 => .error .loop
      | .ok (.link parent target rest), links + 1 =>
        t.walk follow links (startOf parent target) (target.splitOn Path.slash ++ rest) :=
  walk.eq_def t follow links place names

@[simp]
theorem walk_nil (follow : Bool) : t.walk follow links place [] = .ok place := by
  rw [walk_eq, advance.eq_def]

/-- A walk goes through a name that leads on, and uses up no link. -/
theorem walk_of_goes (h : t.Goes place name next) (follow : Bool) :
    t.walk follow links place (name :: rest) = t.walk follow links next rest := by
  rw [walk_eq, advance_of_goes h, ← walk_eq]

/-- A walk follows a link to its target's names, with one link fewer to follow. -/
theorem walk_succ_of_linksTo {target : Bytes} {follow : Bool} (h : t.LinksTo place name target)
    (hfollow : rest = [] → follow = true) :
    t.walk follow (links + 1) place (name :: rest) =
      t.walk follow links (startOf place target) (target.splitOn Path.slash ++ rest) := by
  rw [walk_eq, advance_eq_link h hfollow]

/-- A walk that may follow no more links gives up at one. -/
theorem walk_zero_of_linksTo {target : Bytes} {follow : Bool} (h : t.LinksTo place name target)
    (hfollow : rest = [] → follow = true) :
    t.walk follow 0 place (name :: rest) = .error .loop := by
  rw [walk_eq, advance_eq_link h hfollow]

/-- A walk fails at a name that leads nowhere. -/
theorem walk_of_stops {e : Errno} (h : t.Stops place name e) (follow : Bool) :
    t.walk follow links place (name :: rest) = .error e := by
  rw [walk_eq, advance_of_stops h]

/-- A walk goes on from the place that its first names lead to. -/
theorem walk_append {n : Nat} {follow : Bool} (h : t.Leads n place names next) (hn : n ≤ links)
    (hfollow : more = [] → follow = true) :
    t.walk follow links place (names ++ more) = t.walk follow (links - n) next more := by
  -- A link among the first names is at the end only if no names come after them.
  have hrest {rest : List Bytes} : rest ++ more = [] → follow = true := fun hnil =>
    hfollow (List.append_eq_nil_iff.mp hnil).2
  induction h generalizing links with
  | here place => rfl
  | go hgoes _ ih => rw [List.cons_append, walk_of_goes hgoes, ih hn]
  | @follow n place next name target rest hlink _ ih =>
    obtain ⟨links, rfl⟩ : ∃ fewer, links = fewer + 1 := ⟨links - 1, by omega⟩
    rw [List.cons_append, walk_succ_of_linksTo hlink hrest, ← List.append_assoc, ih (by omega),
      Nat.add_sub_add_right]

/-- A walk that follows links to the end is a way through at most so many links. -/
theorem walk_eq_ok_iff :
    t.walk true links place names = .ok goal ↔ ∃ n ≤ links, t.Leads n place names goal := by
  constructor
  · intro h
    -- A step uses up a name or a link, so the induction is on the links and then on the names.
    induction links using Nat.strongRecOn generalizing place names with
    | ind links ihlinks =>
      induction names generalizing place with
      | nil =>
        rw [walk_nil, Except.ok.injEq] at h
        exact ⟨0, Nat.zero_le links, h ▸ .here place⟩
      | cons name rest ihnames =>
        rcases t.goes_linksTo_or_stops place name with ⟨next, hgoes⟩ | ⟨target, hlink⟩ | ⟨e, hstops⟩
        · rw [walk_of_goes hgoes] at h
          obtain ⟨n, hn, hleads⟩ := ihnames h
          exact ⟨n, hn, .go hgoes hleads⟩
        · cases links with
          | zero =>
            rw [walk_zero_of_linksTo hlink fun _ => rfl] at h
            cases h
          | succ links =>
            rw [walk_succ_of_linksTo hlink fun _ => rfl] at h
            obtain ⟨n, hn, hleads⟩ := ihlinks links (Nat.lt_succ_self links) h
            exact ⟨n + 1, Nat.succ_le_succ hn, .follow hlink hleads⟩
        · rw [walk_of_stops hstops] at h
          cases h
  · rintro ⟨n, hn, h⟩
    rw [← List.append_nil names, walk_append h hn fun _ => rfl, walk_nil]

/-- A walk that does not follow a link at the end stays at the last name. -/
theorem walk_concat {n : Nat} {node : FileNode} (h : t.Leads n place names parent) (hn : n ≤ links)
    (hdir : t.IsDirectory parent) (hlast : IsEntryName last)
    (hnode : t.node? (last :: parent) = some node) :
    t.walk false links place (names ++ [last]) = .ok (last :: parent) := by
  rw [walk_append h hn (by simp)]
  cases node with
  | link target => rw [walk_eq, advance_of_linksTo ⟨hdir, hlast, hnode⟩, if_pos (by simp)]
  | _ => rw [walk_of_goes (.down hdir hlast hnode (by simp)), walk_nil]

/-! ## Ways -/

/-- A way along two lists of names has a place between them. -/
theorem Leads.split {n : Nat} (h : t.Leads n place (names ++ more) goal) :
    ∃ m k mid, n = m + k ∧ t.Leads m place names mid ∧ t.Leads k mid more goal := by
  -- The names of a link's target come in front, so the first list can grow along the way.
  generalize hall : names ++ more = all at h
  induction h generalizing names with
  | here place =>
    obtain ⟨rfl, rfl⟩ := List.append_eq_nil_iff.mp hall
    exact ⟨0, 0, place, rfl, .here place, .here place⟩
  | @go n place next goal name rest hgoes h ih =>
    cases names with
    | nil =>
      obtain rfl : more = name :: rest := hall
      exact ⟨0, n, place, by omega, .here place, .go hgoes h⟩
    | cons first names =>
      obtain ⟨rfl, rfl⟩ := List.cons_eq_cons.mp hall
      obtain ⟨m, k, mid, hlinks, hfront, hmore⟩ := ih rfl
      exact ⟨m, k, mid, hlinks, .go hgoes hfront, hmore⟩
  | @follow n place goal name target rest hlink h ih =>
    cases names with
    | nil =>
      obtain rfl : more = name :: rest := hall
      exact ⟨0, n + 1, place, by omega, .here place, .follow hlink h⟩
    | cons first names =>
      obtain ⟨rfl, rfl⟩ := List.cons_eq_cons.mp hall
      obtain ⟨m, k, mid, hlinks, hfront, hmore⟩ := ih (List.append_assoc ..)
      exact ⟨m + 1, k, mid, by omega, .follow hlink hfront, hmore⟩

/-- A slash at the end of a path name asks for a directory. -/
theorem Leads.of_concat_nil {n : Nat} (h : t.Leads n place (names ++ [[]]) goal) :
    t.Leads n place names goal ∧ t.IsDirectory goal := by
  obtain ⟨m, k, mid, rfl, hnames, hend⟩ := h.split
  cases hend with
  | go hgoes hend =>
    cases hend
    cases hgoes with
    | stay hdir => exact ⟨hnames, hdir⟩
    | up _ hname => cases hname
    | down _ hname => exact absurd rfl hname.ne_empty
  | follow hlink => exact absurd rfl hlink.isEntryName.ne_empty

section Mono

variable (hkept : ∀ place node, t.node? place = some node → t'.node? place = some node)
include hkept

/-- Files that come to a tree leave its directories in place. -/
theorem IsDirectory.mono (h : t.IsDirectory place) : t'.IsDirectory place := by
  obtain ⟨mode, hmode⟩ := isDirectory_iff.mp h
  exact isDirectory_iff.mpr ⟨mode, hkept _ _ hmode⟩

/-- Files that come to a tree leave the names that lead on. -/
theorem Goes.mono (h : t.Goes place name next) : t'.Goes place name next := by
  cases h with
  | stay hdir hname => exact .stay (hdir.mono hkept) hname
  | up hdir hname => exact .up (hdir.mono hkept) hname
  | down hdir hname hnode hlink => exact .down (hdir.mono hkept) hname (hkept _ _ hnode) hlink

/-- Files that come to a tree leave its links. -/
theorem LinksTo.mono {target : Bytes} (h : t.LinksTo place name target) :
    t'.LinksTo place name target :=
  ⟨h.isDirectory.mono hkept, h.isEntryName, hkept _ _ h.node?_eq⟩

/-- Files that come to a tree do not change a way in it. -/
theorem Leads.mono {n : Nat} (h : t.Leads n place names goal) : t'.Leads n place names goal := by
  induction h with
  | here place => exact .here place
  | go hgoes _ ih => exact .go (hgoes.mono hkept) ih
  | follow hlink _ ih => exact .follow (hlink.mono hkept) ih

end Mono

/-! ## Path names -/

/-- A path name that a system call takes. -/
structure IsPathName (path : Bytes) : Prop where
  zero_not_mem : 0 ∉ path
  ne_empty : path ≠ []
  length_lt : path.length < maxPath

/-- The check of a path name lets exactly the ones pass that a system call takes. -/
theorem checkName_eq_ok_iff {path : Bytes} : checkName path = .ok () ↔ IsPathName path := by
  rw [checkName]
  constructor
  · intro h
    split_ifs at h with hzero hempty hlength
    exact ⟨by simpa using hzero, hempty, Nat.lt_of_not_le hlength⟩
  · rintro ⟨hzero, hempty, hlength⟩
    rw [if_neg (by simpa using hzero), if_neg hempty, if_neg (Nat.not_le_of_lt hlength)]

/-- Names lead from a place to another one, through no more links than a walk follows. -/
def Reaches (t : FileTree) (place : Place) (names : List Bytes) (goal : Place) : Prop :=
  ∃ n ≤ maxLinks, t.Leads n place names goal

/-- A path name leads to a place. -/
structure LeadsTo (t : FileTree) (path : Bytes) (place : Place) : Prop where
  isPathName : IsPathName path
  reaches : t.Reaches (startOf t.cwd path) (path.splitOn Path.slash) place

/-- A path name leads to one place. -/
theorem LeadsTo.unique {path : Bytes} {place' : Place} (h : t.LeadsTo path place)
    (h' : t.LeadsTo path place') : place = place' := by
  have hwalk := walk_eq_ok_iff.mpr h.reaches
  rw [walk_eq_ok_iff.mpr h'.reaches] at hwalk
  exact (Except.ok.inj hwalk).symm

/-- A path name is resolved to the file at the end of the walk along its names. -/
theorem resolve_eq_ok_iff {follow : Bool} {path : Bytes} {node : FileNode} :
    t.resolve follow path = .ok (place, node) ↔ IsPathName path ∧
      t.walk follow maxLinks (startOf t.cwd path) (path.splitOn Path.slash) = .ok place ∧
      t.node? place = some node := by
  rw [resolve, bind_eq_ok_iff, ← checkName_eq_ok_iff]
  -- The name is checked, walked along, and looked up at the place where the walk ends.
  constructor
  · rintro ⟨_, hpath, h⟩
    obtain ⟨found, hfound, h⟩ := bind_eq_ok_iff.mp h
    rw [mapError_eq_ok_iff] at hfound
    split at h
    · cases h
      exact ⟨hpath, hfound, ‹_›⟩
    · cases h
  · rintro ⟨hpath, hwalk, hnode⟩
    refine ⟨(), hpath, bind_eq_ok_iff.mpr ⟨place, mapError_eq_ok_iff.mpr hwalk, ?_⟩⟩
    rw [hnode]
    rfl

/-- A path name is resolved to the file at the place that it leads to. -/
theorem resolve_true_eq_ok_iff {path : Bytes} {node : FileNode} :
    t.resolve true path = .ok (place, node) ↔
      t.LeadsTo path place ∧ t.node? place = some node := by
  rw [resolve_eq_ok_iff, walk_eq_ok_iff]
  exact ⟨fun ⟨hpath, hreaches, hnode⟩ => ⟨⟨hpath, hreaches⟩, hnode⟩,
    fun ⟨⟨hpath, hreaches⟩, hnode⟩ => ⟨hpath, hreaches, hnode⟩⟩

/-! ## Trees of directories, regular files and links -/

/-- A tree that holds its root and its working directory, and each of its files in a directory.
    All of its files are directories, regular files and links. -/
structure IsPlain (t : FileTree) : Prop where
  root : t.IsDirectory []
  cwd : t.IsDirectory t.cwd
  parent : ∀ entry ∈ t.nodes, t.IsDirectory entry.1.tail
  node : ∀ entry ∈ t.nodes, entry.2.isPlain = true

/-- A file that is found in a tree is one of those that the tree lists. -/
private theorem node?_mem {node : FileNode} (h : t.node? place = some node) :
    (place, node) ∈ t.nodes := by
  obtain ⟨entry, hentry, rfl, rfl⟩ := Entries.exists_mem_of_find? h
  exact hentry

/-- There is a directory or a regular file at a place. -/
def IsDirectoryOrRegular (t : FileTree) (place : Place) : Prop :=
  t.IsDirectory place ∨ ∃ mode content, t.node? place = some (.regular mode content)

namespace IsPlain

/-- The parent of a directory is one. -/
private theorem isDirectory_tail (ht : t.IsPlain) (h : t.IsDirectory place) :
    t.IsDirectory place.tail := by
  obtain ⟨mode, hmode⟩ := isDirectory_iff.mp h
  exact ht.parent _ (node?_mem hmode)

/-- A way begins at a directory, whether its path name is absolute or not. -/
private theorem isDirectory_startOf (ht : t.IsPlain) (h : t.IsDirectory place) (path : Bytes) :
    t.IsDirectory (startOf place path) := by
  rw [startOf]
  split
  · exact ht.root
  · exact h

/-- A name without a link leads to a directory or a regular file. -/
private theorem isDirectoryOrRegular_of_goes (ht : t.IsPlain) (h : t.Goes place name next) :
    t.IsDirectoryOrRegular next := by
  cases h with
  | stay hdir => exact .inl hdir
  | up hdir => exact .inl (ht.isDirectory_tail hdir)
  | @down node hdir hname hnode hlink =>
    -- What else a file can be, a plain tree does not hold.
    have hplain := ht.node _ (node?_mem hnode)
    cases node with
    | directory mode => exact .inl (isDirectory_iff.mpr ⟨mode, hnode⟩)
    | regular mode content => exact .inr ⟨mode, content, hnode⟩
    | link target => exact absurd rfl (hlink target)
    | _ => cases hplain

/-- In a plain tree a way ends at a directory or a regular file if it begins at one. -/
theorem isDirectoryOrRegular_of_leads {n : Nat} (ht : t.IsPlain) (h : t.Leads n place names goal)
    (hplace : t.IsDirectoryOrRegular place) : t.IsDirectoryOrRegular goal := by
  induction h with
  | here place => exact hplace
  | go hgoes _ ih => exact ih (ht.isDirectoryOrRegular_of_goes hgoes)
  | follow hlink _ ih =>
    -- A target is followed from the directory of its link or from the root.
    exact ih (.inl (ht.isDirectory_startOf hlink.isDirectory _))

/-- In a plain tree a path name leads to a directory or a regular file, if anywhere. -/
theorem isDirectoryOrRegular_of_leadsTo {path : Bytes} (ht : t.IsPlain)
    (h : t.LeadsTo path place) : t.IsDirectoryOrRegular place := by
  obtain ⟨n, -, hleads⟩ := h.reaches
  exact ht.isDirectoryOrRegular_of_leads hleads (.inl (ht.isDirectory_startOf ht.cwd path))

end IsPlain

end FileTree

end ContainerAudit
