import ContainerAudit.Proofs.Check.Collecting
import ContainerAudit.Proofs.Files.Readable

/-!
# Masked paths in a file tree

The check of the masked paths asks about each of them whether there is anything to read, and holds
if there is nothing at any.  A path at which there is no file is such a path, whichever of its names
is missing.  Only a path that goes on behind a file that is no directory is different: the question
about it has no answer, and the check fails.

## Key results

- `maskedPaths_eq_ok_iff`: what the check asks for
- `maskedPaths_tree`: the answers for all paths of a file tree, and what they mean for the check
-/

namespace ContainerAudit

open Text (encode)

/-- A live system answers from a file tree whether a path can be read. -/
def FileTree.IsShownBy (t : FileTree) (s : System) : Prop :=
  ∀ path, s.ask (.isReadable path) = t.isReadable (encode path)

namespace Check

open Findings (ensure settle_collect_eq_nil_iff)

/-- Nothing is found about a path exactly if the answer is that nothing can be read there. -/
private theorem maskedPathFindings_eq_ok_nil_iff {s : System} {path : String} :
    maskedPathFindings s path = .ok [] ↔ s.ask (.isReadable path) = .ok false := by
  cases hask : s.ask (.isReadable path) with
  | error e =>
    rw [maskedPathFindings, System.query_of_error hask]
    simp [bind, Except.bind]
  | ok readable =>
    rw [maskedPathFindings, System.query_of_ok hask]
    cases readable <;> simp [ensure, pure, Except.pure]

/-- The check holds exactly if the answer for each masked path is that there is nothing to read. -/
theorem maskedPaths_eq_ok_iff {d : Document} {s : System} :
    maskedPaths d s = .ok () ↔
      ∀ path ∈ d.declaredMasked, s.ask (.isReadable path) = .ok false := by
  rw [maskedPaths_eq, conclude_eq_ok_iff, settle_collect_eq_nil_iff]
  exact forall₂_congr fun _ _ => maskedPathFindings_eq_ok_nil_iff

/-- In a tree of directories, regular files and links, for every path within the limits: there is
    something to read exactly if the path leads to a directory with an entry or to a file with a
    byte.  There is nothing if it leads to an empty one, and also if it leads nowhere, unless it
    goes on behind a file that is no directory; such a path is an error.  So of the paths at which
    there is no file only these make the check of the masked paths fail. -/
theorem maskedPaths_tree {t : FileTree} (ht : t.IsPlain) :
    (∀ path, t.WithinLimits path →
      (t.isReadable path = .ok true ↔ ∃ place, t.LeadsTo path place ∧ t.HasContent place) ∧
      (t.isReadable path = .ok false ↔ (∃ place, t.LeadsTo path place ∧ ¬t.HasContent place) ∨
        (∀ place, ¬t.LeadsTo path place) ∧ ¬t.BreaksOff path .notDirectory) ∧
      (t.BreaksOff path .notDirectory → (∀ place, ¬t.LeadsTo path place) ∧
        t.isReadable path = .error (.ofErrno .notDirectory))) ∧
    ∀ (d : Document) (s : System), t.IsShownBy s →
      (∀ path ∈ d.declaredMasked, t.WithinLimits (encode path)) →
      (maskedPaths d s = .ok () ↔ ∀ path ∈ d.declaredMasked,
        (∀ place, t.LeadsTo (encode path) place → ¬t.HasContent place) ∧
          ¬t.BreaksOff (encode path) .notDirectory) := by
  refine ⟨fun path hpath => ⟨FileTree.isReadable_eq_true_iff ht,
    FileTree.isReadable_eq_false_iff ht hpath, fun hblocked => ⟨fun place hplace => ?_,
      FileTree.isReadable_of_blocked hblocked⟩⟩, fun d s hs hlimits => ?_⟩
  · exact hplace.not_breaksOff hblocked
  · rw [maskedPaths_eq_ok_iff]
    -- Path by path, there is nothing to read at the one place it leads to, or it leads nowhere.
    refine forall₂_congr fun path hpath => ?_
    rw [hs path, FileTree.isReadable_eq_false_iff ht (hlimits path hpath)]
    constructor
    · rintro (⟨place, hplace, hempty⟩ | ⟨hnowhere, hopen⟩)
      · refine ⟨fun place' hplace' => ?_, hplace.not_breaksOff⟩
        obtain rfl := hplace.unique hplace'
        exact hempty
      · exact ⟨fun place hplace => absurd hplace (hnowhere place), hopen⟩
    · rintro ⟨hempty, hopen⟩
      by_cases hplace : ∃ place, t.LeadsTo (encode path) place
      · obtain ⟨place, hplace⟩ := hplace
        exact .inl ⟨place, hplace, hempty place hplace⟩
      · exact .inr ⟨not_exists.mp hplace, hopen⟩

/-- A directory with a file in it, an empty one, a link to the first one and a link to nowhere. -/
def linkedFiles : FileTree where
  nodes := [([], .directory 0o755), ([encode "run"], .directory 0o755),
    ([encode "etc"], .directory 0o755), ([encode "motd", encode "etc"], .regular 0o644 [0x78]),
    ([encode "conf"], .link (encode "/etc")), ([encode "lost"], .link (encode "gone/away"))]
  cwd := []

/-- A live system that knows a file tree and nothing else. -/
def systemOf (t : FileTree) : System where
  host := .linux
  uid := 0
  gid := 0
  env _ := none
  ask
    | .isReadable path => t.isReadable (encode path)
    | _ => .error (.ofErrno .invalid)

private theorem isPlain_linkedFiles : linkedFiles.IsPlain :=
  ⟨by decide, by decide, by decide, by decide⟩

/-- Through the links, the file can be read and what is not there cannot, so it can be masked like
    the empty directory. -/
theorem maskedPaths_linkedFiles :
    let d : Document := { linux := some { maskedPaths := ["lost/x", "/run"] } }
    (linkedFiles.IsPlain ∧ linkedFiles.WithinLimits (encode "conf/motd") ∧
        linkedFiles.IsShownBy (systemOf linkedFiles) ∧
        ∀ path ∈ d.declaredMasked, linkedFiles.WithinLimits (encode path)) ∧
      linkedFiles.isReadable (encode "conf/motd") = .ok true ∧
      linkedFiles.isReadable (encode "lost/x") = .ok false ∧
      maskedPaths d (systemOf linkedFiles) = .ok () := by
  intro d
  have hfile : linkedFiles.WithinLimits (encode "conf/motd") := by decide +kernel
  have hshown : linkedFiles.IsShownBy (systemOf linkedFiles) := fun _ => rfl
  have hmasked : ∀ path ∈ d.declaredMasked, linkedFiles.WithinLimits (encode path) := by
    decide +kernel
  obtain ⟨hanswers, hcheck⟩ := maskedPaths_tree isPlain_linkedFiles
  -- Where the three paths lead.
  have hmotd : linkedFiles.resolve true (encode "conf/motd") =
      .ok ([encode "motd", encode "etc"], .regular 0o644 [0x78]) := by decide +kernel
  have hrun : linkedFiles.resolve true (encode "/run") =
      .ok ([encode "run"], .directory 0o755) := by decide +kernel
  have hlost : linkedFiles.BreaksOff (encode "lost/x") .noEntry :=
    (FileTree.breaksOff_iff (by decide)).mpr ⟨⟨by decide, by decide, by decide⟩, by decide +kernel⟩
  have hopen : ¬linkedFiles.BreaksOff (encode "lost/x") .notDirectory := by
    rw [FileTree.breaksOff_iff (by decide)]
    intro h
    exact absurd h.2 (by decide +kernel)
  have hempty : ¬linkedFiles.HasContent [encode "run"] := by
    rintro (⟨-, hentry⟩ | ⟨mode, content, hregular, -⟩)
    · exact absurd (FileTree.hasEntries_iff.mpr hentry) (by decide)
    · cases hregular
  refine ⟨⟨isPlain_linkedFiles, hfile, hshown, hmasked⟩, ?_, ?_, ?_⟩
  · exact (hanswers _ hfile).1.mpr
      ⟨_, (FileTree.resolve_true_eq_ok_iff.mp hmotd).1, .inr ⟨_, _, rfl, by decide⟩⟩
  · exact (hanswers _ (hmasked "lost/x" List.mem_cons_self)).2.1.mpr
      (.inr ⟨fun _ hplace => hplace.not_breaksOff hlost, hopen⟩)
  · apply (hcheck d (systemOf linkedFiles) hshown hmasked).mpr
    intro path hpath
    have hmem : path ∈ ["lost/x", "/run"] := hpath
    obtain rfl | rfl : path = "lost/x" ∨ path = "/run" := by simpa using hmem
    · exact ⟨fun _ hplace => absurd hlost hplace.not_breaksOff, hopen⟩
    · have hleads := (FileTree.resolve_true_eq_ok_iff.mp hrun).1
      refine ⟨fun place hplace => ?_, hleads.not_breaksOff⟩
      obtain rfl := hleads.unique hplace
      exact hempty

/-- Behind the file there is no file, but no answer either, and the check fails. -/
theorem maskedPaths_behindFile :
    let d : Document := { linux := some { maskedPaths := ["etc/motd/x"] } }
    (linkedFiles.IsPlain ∧ linkedFiles.WithinLimits (encode "etc/motd/x") ∧
        linkedFiles.IsShownBy (systemOf linkedFiles) ∧
        ∀ place, ¬linkedFiles.LeadsTo (encode "etc/motd/x") place) ∧
      linkedFiles.isReadable (encode "etc/motd/x") ≠ .ok false ∧
      maskedPaths d (systemOf linkedFiles) ≠ .ok () := by
  intro d
  have hlimits : linkedFiles.WithinLimits (encode "etc/motd/x") := by decide +kernel
  have hblocked : linkedFiles.BreaksOff (encode "etc/motd/x") .notDirectory :=
    (FileTree.breaksOff_iff (by decide)).mpr ⟨⟨by decide, by decide, by decide⟩, by decide +kernel⟩
  have hanswer : linkedFiles.isReadable (encode "etc/motd/x") ≠ .ok false := by
    rw [FileTree.isReadable_of_blocked hblocked]
    simp
  -- If the check held, the path would have been answered with no.
  refine ⟨⟨isPlain_linkedFiles, hlimits, fun _ => rfl,
    fun _ hplace => hplace.not_breaksOff hblocked⟩, hanswer, fun hnil => hanswer ?_⟩
  exact maskedPaths_eq_ok_iff.mp hnil "etc/motd/x" List.mem_cons_self

end Check

end ContainerAudit
