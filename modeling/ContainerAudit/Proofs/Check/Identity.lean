import ContainerAudit.Check.Identity
import ContainerAudit.Proofs.Check.Finding
import ContainerAudit.Proofs.Document.Declared
import Mathlib.Data.List.Perm.Subperm

/-!
# Id mappings as whole tables

The checks of the id mappings count the live mappings and look for each declared one among them.
They do not look for a live mapping that is not declared.  Since no mapping is declared twice, there
is no room for one: as many live mappings as declared ones are needed for the declared ones alone
(`perm_iff_of_nodup`), so nothing is found exactly if the live table is the declared one in some
order.
-/

namespace ContainerAudit.Check

/-- The check of the mappings of a kind of ids. -/
def idMappings : IdKind → Document → System → Conclusion
  | .uid => uidMappings
  | .gid => gidMappings

/-- The checks of both kinds of ids are one check of the declared mappings. -/
private theorem idMappings_eq (kind : IdKind) (d : Document) (s : System) :
    idMappings kind d s = mappings kind (d.declaredMappings kind) s := by
  cases kind <;> rfl

/-- A table that holds each declared mapping and no more mappings than these is the declared one in
    some order. -/
theorem perm_iff_of_nodup {declared live : List IdMapping} (h : declared.Nodup) :
    live.Perm declared ↔ live.length = declared.length ∧ ∀ m ∈ declared, m ∈ live := by
  constructor
  · exact fun hperm => ⟨hperm.length_eq, fun m hm => hperm.mem_iff.mpr hm⟩
  · rintro ⟨hlength, hsubset⟩
    have hsubperm : declared.Subperm live := h.subperm hsubset
    exact (hsubperm.perm_of_length_le (Nat.le_of_eq hlength)).symm

section Readable

variable {kind : IdKind} {declared live : List IdMapping} {s : System}

/-- Where the numbers of mappings differ, nothing else is looked at. -/
private theorem mappings_of_length_ne (hne : declared ≠ []) (hask : s.ask (.idMap kind) = .ok live)
    (hlength : live.length ≠ declared.length) :
    mappings kind declared s =
      .error [.mismatch s!"{kind.name} mappings count" (toString declared.length)
        (toString live.length)] := by
  rw [mappings, if_neg (by simpa using hne), System.query_of_ok hask, liftM_ok, Findings.ok_bind,
    if_pos hlength]

/-- Where they are the same, each declared mapping that is not live is reported. -/
private theorem mappings_of_length_eq (hne : declared ≠ []) (hask : s.ask (.idMap kind) = .ok live)
    (hlength : live.length = declared.length) :
    mappings kind declared s =
      conclude ((declared.filter (· ∉ live)).map (mappingNotFound kind)) := by
  rw [mappings, if_neg (by simpa using hne), System.query_of_ok hask, liftM_ok, Findings.ok_bind,
    if_neg (not_not.mpr hlength)]
  simp

end Readable

/-- The live mappings are compared with the declared ones as a whole: the check holds exactly if
    they are the same in some order.  Where their numbers differ only this is found, and else the
    declared mappings that are not live, in their order.  A document without mappings asks for
    nothing. -/
theorem idMappings_whole (kind : IdKind) (d : Document) (s : System) :
    let declared := d.declaredMappings kind
    (declared = [] → idMappings kind d s = .ok ()) ∧
      ∀ live, declared ≠ [] → declared.Nodup → s.ask (.idMap kind) = .ok live →
        (idMappings kind d s = .ok () ↔ live.Perm declared) ∧
        (live.length ≠ declared.length → idMappings kind d s =
          .error [.mismatch s!"{kind.name} mappings count" (toString declared.length)
            (toString live.length)]) ∧
        (live.length = declared.length → idMappings kind d s =
          conclude ((declared.filter (· ∉ live)).map (mappingNotFound kind))) := by
  intro declared
  rw [idMappings_eq]
  refine ⟨fun hnil => ?_, fun live hne hnodup hask =>
    ⟨?_, mappings_of_length_ne hne hask, mappings_of_length_eq hne hask⟩⟩
  · show mappings kind declared s = .ok ()
    rw [hnil]
    rfl
  · -- Tables of the same length without a missing mapping are the same in some order.
    rw [perm_iff_of_nodup hnodup]
    by_cases hlength : live.length = declared.length
    · rw [mappings_of_length_eq hne hask hlength]
      simp [hlength, List.filter_eq_nil_iff]
    · rw [mappings_of_length_ne hne hask hlength]
      simp [hlength]

/-- The check holds where the kernel lists the declared mappings in another order, and finds the
    missing mapping where it repeats one in the place of another. -/
theorem idMappings_reordered :
    let first : IdMapping := ⟨1000, 0, 1⟩
    let second : IdMapping := ⟨2000, 1, 10⟩
    let d : Document := { linux := some { gidMappings := [first, second] } }
    let s : List IdMapping → System := fun live =>
      { host := .linux, uid := 0, gid := 0, env := fun _ => none
        ask := fun
          | .idMap .gid => .ok live
          | _ => .error (.ofErrno .denied) }
    (d.declaredMappings .gid ≠ [] ∧ (d.declaredMappings .gid).Nodup) ∧
      idMappings .gid d (s [second, first]) = .ok () ∧
      idMappings .gid d (s [first, first]) = .error [mappingNotFound .gid second] := by
  intro first second d s
  have hne : d.declaredMappings .gid ≠ [] := by decide
  have hnodup : (d.declaredMappings .gid).Nodup := by decide
  obtain ⟨hreordered, -, -⟩ := (idMappings_whole .gid d (s [second, first])).2 _ hne hnodup rfl
  -- The repeated mapping keeps the count right, so the missing one is looked for.
  obtain ⟨-, -, hrepeated⟩ := (idMappings_whole .gid d (s [first, first])).2 _ hne hnodup rfl
  exact ⟨⟨hne, hnodup⟩, hreordered.mpr (by decide), hrepeated rfl⟩

end ContainerAudit.Check
