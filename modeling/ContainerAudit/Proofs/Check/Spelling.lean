import ContainerAudit.Check.Mounts
import ContainerAudit.Proofs.Check.Finding
import ContainerAudit.Proofs.Live.Spelling
import ContainerAudit.Replica.Basic

/-!
# Mount checks do not depend on how paths are spelled

Two runs of the three checks of mounts are compared: on a document and a table, and on the same
ones with paths spelled in other ways.  The checks look at a path only after it was put in its
canonical spelling, with one exception: the finding about a declared mount that is not there shows
the source of the mount that is there instead as it stands in the table.

## Key results

- `mountOrder_respelled`, `defaultFilesystems_respelled`: the findings are the same
- `mountsExist_respelled`: the findings are the same where the sources in the table are
- `mountChecks_respelled`: all three checks, with their verdicts where those sources differ too
-/

namespace ContainerAudit

open ContainerAudit.Path (canonical Equivalent)

/-- The same declared mount with its paths spelled in other ways. -/
structure Mount.Respelled (m m' : Mount) : Prop where
  destination : Equivalent m.destination m'.destination
  source : Equivalent m.source m'.source
  fstype : m'.fstype = m.fstype
  options : m'.options = m.options

/-- The same document with the paths of its mounts spelled in other ways. -/
structure Document.Respelled (d d' : Document) : Prop where
  mounts : List.Forall₂ Mount.Respelled d.mounts d'.mounts
  others : d' = { d with mounts := d'.mounts }

namespace Check

/-! ## The order of the mounts -/

section

variable {d d' : Document} {s s' : System} {live live' : MountTable}

/-- The canonical destinations do not depend on how they are spelled. -/
private theorem destinations_respelled (hd : d.Respelled d') : destinations d' = destinations d :=
  List.map_eq_of_forall₂ hd.mounts fun _ _ hm => hm.destination.canonical_eq.symm

/-- The platform has nothing to do with paths. -/
private theorem intendedPlatform_respelled (hd : d.Respelled d') :
    d'.intendedPlatform = d.intendedPlatform := by
  rw [hd.others]
  rfl

/-- What is found about a nesting is found in both tables. -/
private theorem nestingFindings_respelled (hlive : live.Respelled live') (n : Nesting) :
    nestingFindings n live' = nestingFindings n live := by
  rw [nestingFindings, nestingFindings, hlive.isActive_eq, hlive.isActive_eq]

/-- The check looks at the paths of a document only when they are canonical. -/
theorem mountOrder_respelled (hd : d.Respelled d') (hlive : live.Respelled live')
    (hhost : s'.host = s.host) (hs : s.ask .mounts = .ok live) (hs' : s'.ask .mounts = .ok live') :
    mountOrder d' s' = mountOrder d s := by
  have hnesting : nesting? d' = nesting? d := by
    rw [nesting?, nesting?, destinations_respelled hd]
  simp only [mountOrder, intendedPlatform_respelled hd, hhost, hnesting, System.query_of_ok hs,
    System.query_of_ok hs']
  cases nesting? d with
  | none => rfl
  | some n => simp only [liftM_ok, Findings.ok_bind, nestingFindings_respelled hlive n]

/-! ## The default file systems -/

/-- The default file systems are found in a table, however its mountpoints are spelled. -/
theorem defaultFilesystems_respelled (hlive : live.Respelled live')
    (hs : s.ask .mounts = .ok live) (hs' : s'.ask .mounts = .ok live') :
    defaultFilesystems d' s' = defaultFilesystems d s := by
  have hfound (mountpoint fstype : String) :
      filesystemFindings live' mountpoint fstype = filesystemFindings live mountpoint fstype := by
    -- Only the type of the last mount there is looked at.
    have hlast := List.rel_getLast? (hlive.mountsAt mountpoint)
    unfold filesystemFindings
    generalize (live.mountsAt mountpoint).getLast? = last at hlast ⊢
    generalize (live'.mountsAt mountpoint).getLast? = last' at hlast ⊢
    cases hlast with
    | none => rfl
    | some hr => simp only [hr.fstype]
  rw [defaultFilesystems, defaultFilesystems, System.query_of_ok hs, System.query_of_ok hs']
  simp only [liftM_ok, Findings.ok_bind, hfound]

/-! ## The declared mounts -/

/-- The declared mounts that are looked for are the same ones. -/
private theorem forall₂_mounts_of_not_isBind (hd : d.Respelled d') :
    List.Forall₂ Mount.Respelled (d.mounts.filter (!·.isBind)) (d'.mounts.filter (!·.isBind)) := by
  refine List.rel_filter (fun m m' hm => ?_) hd.mounts
  have hbind : m'.isBind = m.isBind := by rw [Mount.isBind, Mount.isBind, hm.fstype, hm.options]
  simp only [hbind]

variable {m m' : Mount}

/-- The mounts at a destination that have the declared type and source. -/
private theorem any_mountsAt_respelled (hm : m.Respelled m') (hlive : live.Respelled live') :
    ((live'.mountsAt (canonical m'.destination)).any fun r =>
        r.fstype = m'.fstype && canonical r.source = canonical m'.source) =
      (live.mountsAt (canonical m.destination)).any fun r =>
        r.fstype = m.fstype && canonical r.source = canonical m.source := by
  -- The test reads no more of a record than its type and its canonical source.
  have hany (table : MountTable) (m : Mount) :
      (table.any fun r => r.fstype = m.fstype && canonical r.source = canonical m.source) =
        (table.map fun r => (r.fstype, canonical r.source)).any fun key =>
          key.1 = m.fstype && key.2 = canonical m.source := by
    rw [List.any_map]
    rfl
  have hmap := List.map_eq_of_forall₂ (hlive.mountsAt (canonical m.destination))
    (f := fun r => (r.fstype, canonical r.source)) (g := fun r => (r.fstype, canonical r.source))
    fun r r' hr => by rw [hr.fstype, hr.source.canonical_eq]
  rw [hany, hany, ← hm.destination.canonical_eq, hmap, ← hm.source.canonical_eq, hm.fstype]

/-- A declared mount is there in both tables or in none. -/
private theorem mountFindings_eq_nil_iff_respelled (hm : m.Respelled m')
    (hlive : live.Respelled live') :
    mountFindings live' m' = [] ↔ mountFindings live m = [] := by
  have hnil (holds : Bool) (finding : Finding) :
      Findings.ensure holds finding = [] ↔ holds = true := by
    cases holds <;> simp [Findings.ensure]
  simp only [mountFindings, hnil]
  rw [any_mountsAt_respelled hm hlive]

/-- Where the sources in the table are the same too, so is what is found about a declared mount. -/
private theorem mountFindings_respelled (hm : m.Respelled m') (hlive : live.Respelled live')
    (hsource : live'.map (·.source) = live.map (·.source)) :
    mountFindings live' m' = mountFindings live m := by
  -- The last mount at the destination is the same one, with the very source that it had.
  have hsame : List.Forall₂ (fun r r' : LiveMount => r'.source = r.source) live live' := by
    have heq : List.Forall₂ (· = ·) (live'.map (·.source)) (live.map (·.source)) := by
      rwa [List.forall₂_eq_eq_eq]
    exact (List.forall₂_map_left_iff.mp (List.forall₂_map_right_iff.mp heq)).flip
  have hlast := List.rel_getLast? <| MountTable.forall₂_mountsAt
    (hlive.mp (fun _ _ hr hr' => And.intro hr hr') hsame) (fun _ _ hr => hr.1)
    (canonical m.destination)
  simp only [mountFindings]
  rw [any_mountsAt_respelled hm hlive]
  simp only [← hm.destination.canonical_eq, ← hm.source.canonical_eq, hm.fstype]
  generalize (live.mountsAt (canonical m.destination)).getLast? = last at hlast ⊢
  generalize (live'.mountsAt (canonical m.destination)).getLast? = last' at hlast ⊢
  cases hlast with
  | none => rfl
  | some hr => simp only [hr.1.fstype, hr.2]

/-- Where the sources in the table keep their spelling, the same is found about the declared
    mounts. -/
theorem mountsExist_respelled (hd : d.Respelled d') (hlive : live.Respelled live')
    (hsource : live'.map (·.source) = live.map (·.source))
    (hs : s.ask .mounts = .ok live) (hs' : s'.ask .mounts = .ok live') :
    mountsExist d' s' = mountsExist d s := by
  have hfound := List.map_eq_of_forall₂ (forall₂_mounts_of_not_isBind hd)
    fun m m' hm => mountFindings_respelled hm hlive hsource
  rw [mountsExist, mountsExist, System.query_of_ok hs, System.query_of_ok hs']
  simp only [liftM_ok, Findings.ok_bind, List.flatMap_def, hfound]

/-- Where they do not, the findings quote them in their new spelling, but there are none for one
    spelling exactly if there are none for the other. -/
private theorem mountsExist_eq_ok_iff_respelled (hd : d.Respelled d') (hlive : live.Respelled live')
    (hs : s.ask .mounts = .ok live) (hs' : s'.ask .mounts = .ok live') :
    mountsExist d' s' = .ok () ↔ mountsExist d s = .ok () := by
  -- The check holds by what is true of each mount, and this is the same for both spellings.
  have hfound (d : Document) (s : System) (live : MountTable) (hs : s.ask .mounts = .ok live) :
      mountsExist d s = .ok () ↔
        ∀ found ∈ (d.mounts.filter (!·.isBind)).map (mountFindings live · = []), found := by
    rw [mountsExist, System.query_of_ok hs, List.forall_mem_map]
    exact conclude_eq_ok_iff.trans List.flatMap_eq_nil_iff
  have hmap := List.map_eq_of_forall₂ (forall₂_mounts_of_not_isBind hd)
    (f := (mountFindings live · = [])) (g := (mountFindings live' · = []))
    fun m m' hm => propext (mountFindings_eq_nil_iff_respelled hm hlive)
  rw [hfound d s live hs, hfound d' s' live' hs', hmap]

/-- On one host, spelling the declared destinations and sources and the mountpoints in the table in
    other ways changes nothing that the three checks of mounts find.  Where the sources in the table
    are spelled in other ways too, the checks still hold or fail as before. -/
theorem mountChecks_respelled (hd : d.Respelled d') (hlive : live.Respelled live')
    (hhost : s'.host = s.host) (hs : s.ask .mounts = .ok live) (hs' : s'.ask .mounts = .ok live') :
    mountOrder d' s' = mountOrder d s ∧
      defaultFilesystems d' s' = defaultFilesystems d s ∧
      (live'.map (·.source) = live.map (·.source) → mountsExist d' s' = mountsExist d s) ∧
      (mountsExist d' s' = .ok () ↔ mountsExist d s = .ok ()) :=
  ⟨mountOrder_respelled hd hlive hhost hs hs', defaultFilesystems_respelled hlive hs hs',
    fun hsource => mountsExist_respelled hd hlive hsource hs hs',
    mountsExist_eq_ok_iff_respelled hd hlive hs hs'⟩

/-- A document with a disk mounted below another mount. -/
def diskAt (destination source : String) : Document where
  mounts := [⟨"/mnt", "tmpfs", "tmpfs", []⟩, ⟨destination, "ext4", source, []⟩]

/-- The table that such a document asks for. -/
def diskTable (above destination source : String) : MountTable :=
  [⟨above, "tmpfs", "tmpfs"⟩, ⟨destination, "ext4", source⟩]

/-- A destination with a way down and back up, a mountpoint with a way up from the root, and sources
    with a dot and with an empty component. -/
theorem mountChecks_detours :
    let d := diskAt "/mnt/x/../data" "disk/./a"
    let d' := diskAt "/mnt/data" "disk/a"
    let live := diskTable "/../mnt" "/mnt/data" "disk//a"
    let live' := diskTable "/mnt" "/mnt/data" "disk/a"
    let s := { mounts := live : Replica }.system .linux
    let s' := { mounts := live' : Replica }.system .linux
    (d.Respelled d' ∧ live.Respelled live' ∧ s'.host = s.host) ∧
      mountOrder d' s' = mountOrder d s ∧ defaultFilesystems d' s' = defaultFilesystems d s ∧
      (mountsExist d' s' = .ok () ↔ mountsExist d s = .ok ()) := by
  intro d d' live live' s s'
  have hback : Equivalent "/mnt/x/../data" "/mnt/data" :=
    .of_detour (by decide) (by decide +kernel) (by decide +kernel)
      (.back ["", "mnt"] ["data"] "x" (by decide))
  have hdot : Equivalent "disk/./a" "disk/a" :=
    .of_detour (by decide) (by decide +kernel) (by decide +kernel)
      (.stay ["disk"] ["a"] "." (.inr rfl))
  have hempty : Equivalent "disk//a" "disk/a" :=
    .of_detour (by decide) (by decide +kernel) (by decide +kernel)
      (.stay ["disk"] ["a"] "" (.inl rfl))
  -- The slash of the root stands for an empty piece, before which the way up may stand.
  have htop : Equivalent "/../mnt" "/mnt" := by
    have hlong : Path.components "/../mnt" = ["", "..", "mnt"] := by decide +kernel
    have hshort : Path.components "/mnt" = ["", "mnt"] := by decide +kernel
    refine ⟨by decide, ?_⟩
    rw [hlong, hshort]
    exact .trans _ _ _ (.rel _ _ (.stay [] ["..", "mnt"] "" (.inl rfl))) <|
      .trans _ _ _ (.rel _ _ (.top ["mnt"] (by decide))) <|
        .symm _ _ (.rel _ _ (.stay [] ["mnt"] "" (.inl rfl)))
  have hd : d.Respelled d' :=
    ⟨.cons ⟨.refl _, .refl _, rfl, rfl⟩ (.cons ⟨hback, hdot, rfl, rfl⟩ .nil), rfl⟩
  have hlive : live.Respelled live' :=
    .cons ⟨htop, rfl, .refl _⟩ (.cons ⟨.refl _, rfl, hempty⟩ .nil)
  have hhost : s'.host = s.host := rfl
  have hs : s.ask .mounts = .ok live := rfl
  have hs' : s'.ask .mounts = .ok live' := rfl
  obtain ⟨horder, hdefault, -, hexist⟩ := mountChecks_respelled hd hlive hhost hs hs'
  exact ⟨⟨hd, hlive, hhost⟩, horder, hdefault, hexist⟩

end

end Check

end ContainerAudit
