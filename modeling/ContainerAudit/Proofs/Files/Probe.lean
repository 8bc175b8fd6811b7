import ContainerAudit.Files.Probe
import ContainerAudit.Proofs.Files.Walk
import ContainerAudit.Proofs.Text.Utf8

/-!
# What a write probe leaves behind

A write probe of a directory makes a file in it, under a path name that may pass through links,
and takes it out again by the same path name.  A file that comes to a tree changes no way in it,
so the second walk ends at the new file, and the tree is as before.  If the name is not free, no
file is made and none is taken out.

## Key results

- `remove_create`: a file that was made can be taken out again, and the tree is as before
- `openForWriting_false`: opening a file for writing without truncation leaves the tree as it is
- `newPlace_append`: the place of a new file in the directory that a path name leads to
- `isFileName_probeName`: the names that probes give their files
- `writeProbe_snd`: whatever a write probe answers, the tree is as before
- `writeProbe_leavesNoTrace`: where a write probe succeeds
-/

namespace ContainerAudit.FileTree

open Text (Bytes)

variable {t made : FileTree} {place parent : Place} {path name : Bytes} {front : List Bytes}
  {node : FileNode}

/-! ## New files -/

/-- The last name of a path name stands for a new file in the directory that the others lead to. -/
private theorem newPlace_eq_ok_iff (hsplit : path.splitOn Path.slash = front ++ [name]) :
    t.newPlace path = .ok place ↔ IsPathName path ∧ ∃ parent,
      t.Reaches (startOf t.cwd path) front parent ∧ t.IsDirectory parent ∧ IsEntryName name ∧
      place = name :: parent := by
  rw [newPlace, bind_eq_ok_iff, ← checkName_eq_ok_iff]
  simp only [hsplit, List.dropLast_concat, List.getLast?_concat, Option.getD_some]
  -- The walk goes along the names before the last one, which is only compared.
  constructor
  · rintro ⟨_, hpath, h⟩
    obtain ⟨parent, hparent, h⟩ := bind_eq_ok_iff.mp h
    rw [mapError_eq_ok_iff, walk_eq_ok_iff] at hparent
    split at h
    · rename_i mode hmode
      split_ifs at h with hspecial hlength
      simp only [not_or] at hspecial
      exact ⟨hpath, parent, hparent, isDirectory_iff.mpr ⟨mode, hmode⟩,
        ⟨hspecial.1, hspecial.2.1, hspecial.2.2, Nat.le_of_not_lt hlength⟩,
        (Except.ok.inj h).symm⟩
    · cases h
    · cases h
  · rintro ⟨hpath, parent, hparent, hdir, hname, rfl⟩
    refine ⟨(), hpath, bind_eq_ok_iff.mpr ⟨parent, ?_, ?_⟩⟩
    · rwa [mapError_eq_ok_iff, walk_eq_ok_iff]
    · obtain ⟨mode, hmode⟩ := isDirectory_iff.mp hdir
      rw [hmode]
      simp only [hname.ne_empty, hname.ne_dot, hname.ne_up, or_self, if_false,
        Nat.not_lt_of_le hname.length_le]
      rfl

/-- The tree with a file set at a place. -/
def withFile (t : FileTree) (place : Place) (node : FileNode) : FileTree :=
  { t with nodes := Entries.insert id place node t.nodes }

/-- The file that was set is found. -/
private theorem node?_withFile_self (t : FileTree) (place : Place) (node : FileNode) :
    (t.withFile place node).node? place = some node :=
  Entries.find?_insert_self id place node t.nodes

/-- What is found in a tree is found with one more file in it. -/
private theorem node?_withFile {new : Place} {other : FileNode} (hnew : t.node? new = none)
    (h : t.node? place = some other) : (t.withFile new node).node? place = some other := by
  have hne : new ≠ place := by
    rintro rfl
    rw [hnew] at h
    cases h
  rw [← h]
  exact Entries.find?_insert_of_ne id node t.nodes hne

/-- A file is made at the place of a path name if there is none. -/
private theorem create_eq_ok_iff :
    t.create path node = .ok made ↔ ∃ place, t.newPlace path = .ok place ∧ t.node? place = none ∧
      made = t.withFile place node := by
  rw [create, bind_eq_ok_iff]
  refine exists_congr fun place => and_congr_right fun _ => ?_
  cases hnode : t.node? place with
  | some other => simp [throw, throwThe, MonadExceptOf.throw, bind, Except.bind]
  | none => simp [pure, Except.pure, withFile, eq_comm]

/-- The file of a path name is taken out unless it is a directory; a link is not followed. -/
private theorem remove_of_resolve (h : t.resolve false path = .ok (place, node))
    (hnode : node.isDirectory = false) :
    t.remove path = .ok { t with nodes := Entries.erase id place t.nodes } := by
  rw [remove, h]
  show (if node.isDirectory then _ else _) = _
  rw [hnode]
  rfl

/-- A file that was made can be taken out again, and the tree is as before. -/
theorem remove_create (hnode : node.isDirectory = false) (h : t.create path node = .ok made) :
    made.remove path = .ok t := by
  obtain ⟨place, hplace, hnone, rfl⟩ := create_eq_ok_iff.mp h
  obtain ⟨front, name, hsplit⟩ : ∃ front name, path.splitOn Path.slash = front ++ [name] :=
    (List.eq_nil_or_concat' _).resolve_left (List.splitOn_ne_nil _ _)
  obtain ⟨hpath, parent, ⟨n, hn, hleads⟩, hdir, hname, rfl⟩ := (newPlace_eq_ok_iff hsplit).mp hplace
  have hkept (place : Place) (other : FileNode) (hother : t.node? place = some other) :
      (t.withFile (name :: parent) node).node? place = some other :=
    node?_withFile hnone hother
  have hfound := node?_withFile_self t (name :: parent) node
  -- The names before the last one lead to the same directory as before.
  have hresolve : (t.withFile (name :: parent) node).resolve false path =
      .ok (name :: parent, node) := by
    refine resolve_eq_ok_iff.mpr ⟨hpath, ?_, hfound⟩
    rw [hsplit]
    exact walk_concat (hleads.mono hkept) hn (hdir.mono hkept) hname hfound
  have herase : Entries.erase id (name :: parent) (t.withFile (name :: parent) node).nodes =
      t.nodes := Entries.erase_insert node hnone
  rw [remove_of_resolve hresolve hnode, herase]
  rfl

/-! ## Opened files -/

/-- Opening a file for writing without truncation leaves the tree as it is. -/
theorem openForWriting_false (h : t.openForWriting false path = .ok made) : made = t := by
  obtain ⟨found, -, h⟩ := bind_eq_ok_iff.mp h
  cases hdir : found.2.isDirectory with
  | true => simp [hdir, throw, throwThe, MonadExceptOf.throw, bind, Except.bind] at h
  | false => simpa [hdir, pure, Except.pure, eq_comm] using h

/-- Any file but a directory can be opened for writing. -/
private theorem openForWriting_of_not_isDirectory (h : t.LeadsTo path place)
    (hnode : t.node? place = some node) (hfile : node.isDirectory = false) :
    t.openForWriting false path = .ok t := by
  rw [openForWriting, resolve_true_eq_ok_iff.mpr ⟨h, hnode⟩]
  simp [hfile, bind, Except.bind, pure, Except.pure]

/-- With truncation, what was in a regular file is lost. -/
theorem node?_openForWriting_true {mode : UInt32} {content : Bytes} (h : t.LeadsTo path place)
    (hnode : t.node? place = some (.regular mode content)) :
    ∃ opened, t.openForWriting true path = .ok opened ∧
      opened.node? place = some (.regular mode []) := by
  refine ⟨t.withFile place (.regular mode []), ?_, node?_withFile_self ..⟩
  rw [openForWriting, resolve_true_eq_ok_iff.mpr ⟨h, hnode⟩]
  rfl

/-- Whatever a write probe answers, the tree is as before. -/
theorem writeProbe_snd (t : FileTree) (name path : Bytes) : (t.writeProbe name path).2 = t := by
  rw [writeProbe]
  split
  · rfl
  · dsimp only
    split
    · rfl
    · -- In a directory a file was made, and it is taken out again.
      rename_i made hmade
      rw [remove_create rfl hmade]
      rfl
  · split
    · rfl
    · -- Any other file was opened and left as it is.
      rename_i opened hopened
      exact openForWriting_false hopened

/-! ## The file that a probe makes -/

/-- A name for a file, in one piece. -/
structure IsFileName (name : Bytes) : Prop extends IsEntryName name where
  slash_not_mem : Path.slash ∉ name
  zero_not_mem : 0 ∉ name

/-- A probe can make its file wherever its directory is, if what makes its name unique has neither
    slash nor zero character and is not too long. -/
theorem isFileName_probeName {unique : String} (hslash : '/' ∉ unique.toList)
    (hzero : '\x00' ∉ unique.toList) (hlength : (Text.encode unique).length + 19 ≤ maxName) :
    IsFileName (Text.encode (probeName unique)) := by
  have hencode : Text.encode (probeName unique) =
      Text.encode ".runtimetest-probe-" ++ Text.encode unique := Text.encode_append ..
  -- The text in front makes the name longer than any special one.
  have hbegin : (Text.encode ".runtimetest-probe-").length = 19 := by decide +kernel
  have hlong : 19 ≤ (Text.encode (probeName unique)).length := by
    rw [hencode, List.length_append, hbegin]
    exact Nat.le_add_right ..
  have hshort (name : Bytes) (hname : name.length < 19) :
      Text.encode (probeName unique) ≠ name := by
    rintro rfl
    exact absurd hname (Nat.not_lt_of_le hlong)
  refine ⟨⟨hshort _ (by decide), hshort _ (by decide), hshort _ (by decide), ?_⟩, ?_, ?_⟩
  · rw [hencode, List.length_append, hbegin, Nat.add_comm]
    exact hlength
  · rw [hencode, List.mem_append, not_or]
    exact ⟨by decide +kernel, Text.not_mem_encode (by decide) (by decide) hslash⟩
  · rw [hencode, List.mem_append, not_or]
    exact ⟨by decide +kernel, Text.zero_not_mem_encode hzero⟩

/-- The names on the way to a file in a directory are those on the way to the directory and that of
    the file.  A slash at the end of the directory's path name adds no name. -/
private theorem splitOn_append (hpath : path ≠ []) (hname : Path.slash ∉ name) :
    ∃ front, (Path.append Path.slash path name).splitOn Path.slash = front ++ [name] ∧
      (path.splitOn Path.slash = front ∨ path.splitOn Path.slash = front ++ [[]]) := by
  have hhead : name.head? ≠ some Path.slash := fun h => hname (List.mem_of_mem_head? h)
  have hsplit : name.splitOn Path.slash = [name] := List.splitOn_eq_singleton hname
  rw [Path.append, if_neg hhead]
  -- A slash comes between the two unless the directory's path name ends in one.
  split
  · rename_i h
    obtain ⟨before, rfl⟩ : ∃ before, path = before ++ [Path.slash] :=
      List.getLast?_eq_some_iff.mp (h.resolve_left (by simpa using hpath))
    refine ⟨before.splitOn Path.slash, ?_, .inr ?_⟩
    · rw [List.append_assoc, List.singleton_append, List.splitOn_append_cons_self, hsplit]
    · rw [List.splitOn_append_cons_self, List.splitOn_nil]
  · exact ⟨path.splitOn Path.slash, by rw [List.splitOn_append_cons_self, hsplit], .inl rfl⟩

/-- A byte of a file's path name is one of the directory's path name or of the file's name, or the
    slash between them. -/
theorem mem_append {byte : UInt8} (h : byte ∈ Path.append Path.slash path name) :
    byte ∈ path ∨ byte = Path.slash ∨ byte ∈ name := by
  rw [Path.append] at h
  split_ifs at h
  · exact .inr (.inr h)
  · exact (List.mem_append.mp h).imp_right .inr
  · simpa using h

/-- The way to a file in a directory begins where the way to the directory does. -/
private theorem startOf_append (cwd : Place) (hpath : path ≠ []) (hname : Path.slash ∉ name) :
    startOf cwd (Path.append Path.slash path name) = startOf cwd path := by
  have hhead : name.head? ≠ some Path.slash := fun h => hname (List.mem_of_mem_head? h)
  rw [Path.append, if_neg hhead, startOf, startOf]
  split <;> rw [List.head?_append_of_ne_nil _ hpath]

/-- The path name of a file in a directory is one that a system call takes if it is short enough. -/
private theorem isPathName_append (hpath : IsPathName path) (hname : IsFileName name)
    (hfits : (Path.append Path.slash path name).length < maxPath) :
    IsPathName (Path.append Path.slash path name) where
  zero_not_mem hzero := by
    rcases mem_append hzero with hzero | hzero | hzero
    · exact hpath.zero_not_mem hzero
    · cases hzero
    · exact hname.zero_not_mem hzero
  ne_empty hempty := by
    rw [Path.append] at hempty
    split_ifs at hempty
    · exact hname.ne_empty hempty
    all_goals exact hpath.ne_empty (List.append_eq_nil_iff.mp hempty).1
  length_lt := hfits

/-- The name of a file in a directory has its place there. -/
theorem newPlace_append (h : t.LeadsTo path place) (hdir : t.IsDirectory place)
    (hname : IsFileName name) (hfits : (Path.append Path.slash path name).length < maxPath) :
    t.newPlace (Path.append Path.slash path name) = .ok (name :: place) := by
  obtain ⟨hpath, n, hn, hleads⟩ := h
  obtain ⟨front, hsplit, hfront⟩ := splitOn_append hpath.ne_empty hname.slash_not_mem
  refine (newPlace_eq_ok_iff hsplit).mpr ⟨isPathName_append hpath hname hfits, place, ⟨n, hn, ?_⟩,
    hdir, hname.toIsEntryName, rfl⟩
  rw [startOf_append t.cwd hpath.ne_empty hname.slash_not_mem]
  -- With a slash at the end, the way to the directory has an empty name more.
  rcases hfront with hfront | hfront
  · exact hfront ▸ hleads
  · rw [hfront] at hleads
    exact hleads.of_concat_nil.1

/-- In a directory a write probe succeeds if its name is free there. -/
private theorem writeProbe_fst_of_isDirectory (h : t.LeadsTo path place)
    (hdir : t.IsDirectory place)
    (hname : IsFileName name) (hfits : (Path.append Path.slash path name).length < maxPath) :
    (t.writeProbe name path).1 = .ok () ↔ t.node? (name :: place) = none := by
  obtain ⟨mode, hmode⟩ := isDirectory_iff.mp hdir
  rw [writeProbe, resolve_true_eq_ok_iff.mpr ⟨h, hmode⟩]
  dsimp only
  have hnew := newPlace_append h hdir hname hfits
  -- A file that has the name already keeps the probe from being made.
  cases hfree : t.node? (name :: place) with
  | none =>
    rw [create_eq_ok_iff.mpr ⟨_, hnew, hfree, rfl⟩]
    simp
  | some other =>
    rw [create, hnew]
    simp [bind, Except.bind, hfree, throw, throwThe, MonadExceptOf.throw]

/-- At a file that is no directory a write probe succeeds. -/
private theorem writeProbe_fst_of_not_isDirectory (h : t.LeadsTo path place)
    (hnode : t.node? place = some node) (hfile : node.isDirectory = false) :
    (t.writeProbe name path).1 = .ok () := by
  rw [writeProbe, resolve_true_eq_ok_iff.mpr ⟨h, hnode⟩]
  cases node with
  | directory mode => cases hfile
  | _ => simp only [openForWriting_of_not_isDirectory h hnode hfile]

/-- A write probe that succeeds has found a file. -/
private theorem exists_leadsTo_of_writeProbe (h : (t.writeProbe name path).1 = .ok ()) :
    ∃ place, t.LeadsTo path place := by
  cases hresolve : t.resolve true path with
  | error e =>
    rw [writeProbe, hresolve] at h
    cases h
  | ok found => exact ⟨found.1, (resolve_true_eq_ok_iff.mp hresolve).1⟩

/-- Whatever a write probe answers, the tree is as before.  It succeeds exactly if the path name
    leads to a directory in which the name of the probe is free, or to a regular file. -/
theorem writeProbe_leavesNoTrace (t : FileTree) (name path : Bytes) :
    (t.writeProbe name path).2 = t ∧
      (t.IsPlain → IsFileName name → (Path.append Path.slash path name).length < maxPath →
        ((t.writeProbe name path).1 = .ok () ↔
          (∃ place, t.LeadsTo path place ∧ t.IsDirectory place ∧ t.node? (name :: place) = none) ∨
            ∃ place mode content, t.LeadsTo path place ∧
              t.node? place = some (.regular mode content))) := by
  refine ⟨writeProbe_snd t name path, fun ht hname hfits => ⟨fun h => ?_, ?_⟩⟩
  · obtain ⟨place, hplace⟩ := exists_leadsTo_of_writeProbe h
    rcases ht.isDirectoryOrRegular_of_leadsTo hplace with hdir | ⟨mode, content, hregular⟩
    · have hfree := (writeProbe_fst_of_isDirectory hplace hdir hname hfits).mp h
      exact .inl ⟨place, hplace, hdir, hfree⟩
    · exact .inr ⟨place, mode, content, hplace, hregular⟩
  · rintro (⟨place, hplace, hdir, hfree⟩ | ⟨place, mode, content, hplace, hregular⟩)
    · exact (writeProbe_fst_of_isDirectory hplace hdir hname hfits).mpr hfree
    · exact writeProbe_fst_of_not_isDirectory hplace hregular rfl

/-- A directory with a file in it, and a link to the directory. -/
def linkedTree : FileTree where
  nodes := [([], .directory 0o755), ([Text.encode "run"], .directory 0o755),
    ([Text.encode "lock", Text.encode "run"], .regular 0o644 []),
    ([Text.encode "var"], .link (Text.encode "/run"))]
  cwd := []

/-- Through the link, a new name in the directory can be written, and one that stands there
    cannot. -/
theorem writeProbe_linkedTree :
    let path := Text.encode "var"
    let free := linkedTree.writeProbe (Text.encode "probe") path
    let occupied := linkedTree.writeProbe (Text.encode "lock") path
    (linkedTree.IsPlain ∧ IsFileName (Text.encode "probe") ∧ IsFileName (Text.encode "lock")) ∧
      free.1 = .ok () ∧ free.2 = linkedTree ∧ occupied.1 ≠ .ok () ∧ occupied.2 = linkedTree := by
  intro path free occupied
  have hplain : linkedTree.IsPlain := ⟨by decide, by decide, by decide, by decide⟩
  have hprobe : IsFileName (Text.encode "probe") :=
    ⟨⟨by decide, by decide, by decide, by decide⟩, by decide, by decide⟩
  have hlock : IsFileName (Text.encode "lock") :=
    ⟨⟨by decide, by decide, by decide, by decide⟩, by decide, by decide⟩
  have hplace : linkedTree.resolve true path = .ok ([Text.encode "run"], .directory 0o755) := by
    decide +kernel
  have hleads : linkedTree.LeadsTo path [Text.encode "run"] := (resolve_true_eq_ok_iff.mp hplace).1
  obtain ⟨hfree, hprobe'⟩ := writeProbe_leavesNoTrace linkedTree (Text.encode "probe") path
  obtain ⟨hoccupied, hlock'⟩ := writeProbe_leavesNoTrace linkedTree (Text.encode "lock") path
  -- Both probes are made in the directory behind the link, the only place of the path name.
  refine ⟨⟨hplain, hprobe, hlock⟩, ?_, hfree, ?_, hoccupied⟩
  · exact (hprobe' hplain hprobe (by decide)).mpr (.inl ⟨_, hleads, by decide, by decide⟩)
  · rw [ne_eq, hlock' hplain hlock (by decide)]
    rintro (⟨place, hplace, -, hnone⟩ | ⟨place, mode, content, hplace, hregular⟩)
    · obtain rfl := hplace.unique hleads
      exact absurd hnone (by decide)
    · obtain rfl := hplace.unique hleads
      cases hregular

end ContainerAudit.FileTree
