import ContainerAudit.Check.Invocation
import ContainerAudit.Proofs.Check.Finding
import ContainerAudit.Proofs.Live.ProcFile
import ContainerAudit.Replica.Basic

/-!
# The arguments of a process that was started as declared

The argument check holds exactly if the live arguments are the declared ones
(`arguments_eq_ok_iff`).  A process that was started with the declared arguments still does not
always pass: the file from which they are read does not show empty arguments at its ends.
-/

namespace ContainerAudit.Check

/-- Comparing two lists of the same length position by position. -/
private theorem compareEach_eq_nil_iff {expected actual : List String} {k : Nat}
    {what : Nat → String}
    (hlength : actual.length = expected.length) :
    (((expected.zip actual).zipIdx k).flatMap fun ((e, a), i) =>
      Findings.compare (what i) id e a) = [] ↔ actual = expected := by
  induction expected generalizing actual k with
  | nil => simp [List.length_eq_zero_iff.mp hlength]
  | cons e expected ih =>
    obtain ⟨a, actual, rfl⟩ := List.exists_cons_of_length_eq_add_one hlength
    have hrest : actual.length = expected.length := by simpa using hlength
    rw [List.zip_cons_cons, List.zipIdx_cons, List.flatMap_cons, List.append_eq_nil_iff,
      Findings.compare_eq_nil_iff, ih hrest, List.cons.injEq]

/-- The check holds exactly if the live arguments are the declared ones. -/
theorem arguments_eq_ok_iff {d : Document} {p : Process} {s : System} {actual : List String}
    (hp : d.process = some p) (hask : s.ask .arguments = .ok actual) :
    arguments d s = .ok () ↔ actual = p.args := by
  rw [arguments, hp, System.query_of_ok hask]
  by_cases hlength : actual.length = p.args.length
  · simpa [hlength] using compareEach_eq_nil_iff hlength
  · -- Lists of different lengths are not compared any further, and they are not equal.
    have hne : actual ≠ p.args := fun heq => hlength (congrArg List.length heq)
    simp [hlength, hne]

/-- The argument file gives the arguments back but for the empty ones at both ends.  So a process
    that was started with exactly the declared arguments passes the check exactly if neither the
    first nor the last of them is empty. -/
theorem arguments_argumentFile {args : List String} (h : ZeroFree args) :
    parseArguments (argumentFile args) = Text.trimWhere String.isEmpty args ∧
      (parseArguments (argumentFile args) = args ↔
        args.head? ≠ some "" ∧ args.getLast? ≠ some "") ∧
      ∀ (d : Document) (p : Process) (s : System), d.process = some p → p.args = args →
        s.ask .arguments = .ok (parseArguments (argumentFile args)) →
        (arguments d s = .ok () ↔ args.head? ≠ some "" ∧ args.getLast? ≠ some "") := by
  have hread := parseArguments_argumentFile h
  have hends : parseArguments (argumentFile args) = args ↔
      args.head? ≠ some "" ∧ args.getLast? ≠ some "" := by
    have hoption (a? : Option String) : (∀ a ∈ a?, a.isEmpty = false) ↔ a? ≠ some "" := by
      cases a? <;> simp
    rw [hread, Text.trimWhere_eq_self_iff, hoption, hoption]
  refine ⟨hread, hends, fun d p s hp hargs hask => ?_⟩
  rw [arguments_eq_ok_iff hp hask, hargs, hends]

/-- A document that declares arguments. -/
def declaring (args : List String) : Document where
  process := some { args := args }

/-- The system of a process that was started with the arguments. -/
def startedWith (args : List String) : System :=
  { args := parseArguments (argumentFile args) : Replica }.system .linux

/-- Empty arguments inside are kept. -/
theorem arguments_emptyInside :
    let args := ["sh", "", "", "-c", "é"]
    ZeroFree args ∧ parseArguments (argumentFile args) = args ∧
      arguments (declaring args) (startedWith args) = .ok () := by
  intro args
  have hzero : ZeroFree args := by decide
  have hends : args.head? ≠ some "" ∧ args.getLast? ≠ some "" := by decide
  obtain ⟨-, hread, hcheck⟩ := arguments_argumentFile hzero
  have hfindings := hcheck (declaring args) _ (startedWith args) rfl rfl rfl
  exact ⟨hzero, hread.mpr hends, hfindings.mpr hends⟩

/-- An empty argument at the end is lost, and the document that declares it fails the check. -/
theorem arguments_emptyAtEnd_ne_ok :
    let args := ["sh", ""]
    ZeroFree args ∧ parseArguments (argumentFile args) = ["sh"] ∧
      arguments (declaring args) (startedWith args) ≠ .ok () := by
  intro args
  have hzero : ZeroFree args := by decide
  have hread : parseArguments (argumentFile args) = ["sh"] := parseArguments_argumentFile hzero
  refine ⟨hzero, hread, ?_⟩
  have hcheck := arguments_eq_ok_iff (d := declaring args) (s := startedWith args) rfl rfl
  rw [ne_eq, hcheck, hread]
  decide

end ContainerAudit.Check
