import ContainerAudit.Live.Mount
import ContainerAudit.Proofs.List
import ContainerAudit.Proofs.Path.Equivalent

/-!
# Mount tables in other spellings

A table whose mountpoints and sources are spelled in other ways shows the same mounts at a path, and
the same mountpoints are active.
-/

namespace ContainerAudit

open ContainerAudit.Path (canonical Equivalent)

/-- The same mount with its paths spelled in other ways. -/
structure LiveMount.Respelled (r r' : LiveMount) : Prop where
  mountpoint : Equivalent r.mountpoint r'.mountpoint
  fstype : r'.fstype = r.fstype
  source : Equivalent r.source r'.source

namespace MountTable

/-- The same mounts in the same order, with their paths spelled in other ways. -/
abbrev Respelled (live live' : MountTable) : Prop := List.Forall₂ LiveMount.Respelled live live'

variable {live live' : MountTable}

/-- The mountpoints have the same canonical spellings, in the same order. -/
private theorem Respelled.map_canonical_mountpoint (h : live.Respelled live') :
    live'.map (canonical ·.mountpoint) = live.map (canonical ·.mountpoint) :=
  List.map_eq_of_forall₂ h fun _ _ hr => hr.mountpoint.canonical_eq.symm

/-- The mounts at a path are the same ones, and what else is known of each stays known. -/
theorem forall₂_mountsAt {R : LiveMount → LiveMount → Prop} (h : List.Forall₂ R live live')
    (hR : ∀ r r', R r r' → r.Respelled r') (path : String) :
    List.Forall₂ R (live.mountsAt path) (live'.mountsAt path) := by
  refine List.rel_filter (fun r r' hr => ?_) h
  simp only [(hR r r' hr).mountpoint.canonical_eq]

/-- The mounts at a path are the same ones. -/
theorem Respelled.mountsAt (h : live.Respelled live') (path : String) :
    (live.mountsAt path).Respelled (live'.mountsAt path) :=
  forall₂_mountsAt h (fun _ _ hr => hr) path

/-- Whether a mountpoint is active is seen from the canonical spellings of all mountpoints. -/
private theorem isActive_eq_of_map {path : String}
    (h : live'.map (canonical ·.mountpoint) = live.map (canonical ·.mountpoint)) :
    live'.isActive path = live.isActive path := by
  have hactive (table : MountTable) : table.isActive path =
      let newest := (table.map (canonical ·.mountpoint)).reverse
      newest.any (· = path) &&
        !(newest.takeWhile fun p => !decide (p = path)).any (Path.isProperAncestor · path) := by
    simp [isActive, ← List.map_reverse, List.takeWhile_map, List.any_map, Function.comp_def]
  rw [hactive, hactive, h]

/-- The same mountpoints are active. -/
theorem Respelled.isActive_eq (h : live.Respelled live') (path : String) :
    live'.isActive path = live.isActive path :=
  isActive_eq_of_map h.map_canonical_mountpoint

end MountTable

end ContainerAudit
