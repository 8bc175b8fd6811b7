import ContainerAudit.Grade
import Mathlib.Data.List.Range

/-!
# The failures that count

Results are numbered before any of them is left out, so a failure that counts has the number of its
place in the report, whatever the minimum.  The report numbers the results on its own and the
summary takes the numbers from the failures; both show the same text for the same failure.

## Key results

- `mem_fatals_iff`, `pairwise_fatals`: which failures count, and in which order
- `fatals_of_le`: a higher minimum leaves failures out and changes nothing else
- `reportLines_of_countsAt`: the line of a failure that counts stands at its number
- `grade_agrees`: grading, report and summary agree
-/

namespace ContainerAudit.Audit

/-- The result at a place, counted from zero, is a failure that counts, and this is its entry. -/
def CountsAt (minimum : Level) (results : List Verdict) (place : Nat) (f : FatalFailure) : Prop :=
  ∃ r findings, results[place]? = some r ∧ r.outcome = .fail findings ∧ minimum ≤ r.level ∧
    f = ⟨place + 1, r.description, r.level, findings.message⟩

/-! ## One result -/

/-- A result has an entry exactly if it is a failure that is strong enough. -/
private theorem fatal?_eq_some_iff {minimum : Level} {r : Verdict} {number : Nat}
    {f : FatalFailure} :
    fatal? minimum r number = some f ↔
      ∃ findings, r.outcome = .fail findings ∧ minimum ≤ r.level ∧
        f = ⟨number, r.description, r.level, findings.message⟩ := by
  unfold fatal?
  -- A result below the minimum has no entry, whatever its outcome is.
  by_cases hlevel : minimum ≤ r.level
  · cases houtcome : r.outcome <;> simp [hlevel, Outcome.findings?, eq_comm]
  · simp [hlevel]

/-- An entry has the number that was given out. -/
private theorem number_of_fatal? {minimum : Level} {r : Verdict} {number : Nat} {f : FatalFailure}
    (h : fatal? minimum r number = some f) : f.number = number := by
  obtain ⟨findings, -, -, rfl⟩ := fatal?_eq_some_iff.mp h
  rfl

/-- A result that counts against the higher of two minimums is one that counts against the lower
    one and is as strong as the higher one. -/
private theorem fatal?_of_le {lower higher : Level} (h : lower ≤ higher) (r : Verdict)
    (number : Nat) :
    fatal? higher r number = (fatal? lower r number).filter (higher ≤ ·.level) := by
  unfold fatal?
  by_cases hhigher : higher ≤ r.level
  · have hlower : lower ≤ r.level := Level.le_trans h hhigher
    cases r.outcome.findings? <;> simp [hlower, hhigher, Option.filter]
  · by_cases hlower : lower ≤ r.level
    · -- It counts against the lower one only, and the filter takes it out.
      cases r.outcome.findings? <;> simp [hlower, hhigher, Option.filter]
    · simp [hlower, hhigher]

/-! ## All results -/

/-- The entries are those of the places that count. -/
theorem mem_fatals_iff {minimum : Level} {results : List Verdict} {f : FatalFailure} :
    f ∈ fatals minimum results ↔ ∃ place, CountsAt minimum results place f := by
  unfold fatals CountsAt
  rw [List.mem_filterMap]
  constructor
  · rintro ⟨⟨r, number⟩, hmem, hfatal⟩
    obtain ⟨hle, hget⟩ := List.mk_mem_zipIdx_iff_le_and_getElem?_sub.mp hmem
    obtain ⟨findings, houtcome, hlevel, rfl⟩ := fatal?_eq_some_iff.mp hfatal
    -- Numbers begin with one and places with zero.
    refine ⟨number - 1, r, findings, hget, houtcome, hlevel, ?_⟩
    rw [Nat.sub_add_cancel hle]
  · rintro ⟨place, r, findings, hget, houtcome, hlevel, rfl⟩
    refine ⟨(r, place + 1), ?_, fatal?_eq_some_iff.mpr ⟨findings, houtcome, hlevel, rfl⟩⟩
    rw [List.mk_mem_zipIdx_iff_le_and_getElem?_sub]
    exact ⟨Nat.le_add_left 1 place, by simpa using hget⟩

/-- The entries stand in the order of their numbers, and no number occurs twice. -/
theorem pairwise_fatals (minimum : Level) (results : List Verdict) :
    (fatals minimum results).Pairwise fun f g => f.number < g.number := by
  -- The numbers are given out before anything is left out.
  have hnumbers : (results.zipIdx 1).Pairwise fun a b => a.2 < b.2 := by
    rw [← List.pairwise_map, List.zipIdx_map_snd]
    exact List.pairwise_lt_range' 1
  refine hnumbers.filterMap _ fun (r, m) (r', n) hlt f hf g hg => ?_
  rw [number_of_fatal? hf, number_of_fatal? hg]
  exact hlt

/-- A higher minimum leaves out the failures below it and nothing else. -/
theorem fatals_of_le {lower higher : Level} (h : lower ≤ higher) (results : List Verdict) :
    fatals higher results = (fatals lower results).filter (higher ≤ ·.level) := by
  unfold fatals
  rw [List.filter_filterMap]
  exact List.filterMap_congr fun (r, number) _ => fatal?_of_le h r number

/-- There are no entries exactly if no place counts. -/
private theorem fatals_eq_nil_iff {minimum : Level} {results : List Verdict} :
    fatals minimum results = [] ↔ ¬∃ place f, CountsAt minimum results place f := by
  rw [List.eq_nil_iff_forall_not_mem, exists_comm, not_exists]
  exact forall_congr' fun f => not_congr mem_fatals_iff

/-! ## Grading -/

/-- Grading gives the entries if there are any, and else nothing. -/
theorem failures_grade (results : List Verdict) (minimum : Level) :
    (grade results minimum).failures =
      if fatals minimum results = [] then none else some (fatals minimum results) := by
  simp [grade]

/-- Either way the entries can be read off. -/
private theorem getD_failures_grade (results : List Verdict) (minimum : Level) :
    (grade results minimum).failures.getD [] = fatals minimum results := by
  rw [failures_grade]
  split
  · rename_i hnil
    exact hnil.symm
  · rfl

/-! ## The texts -/

/-- The last line of a report. -/
def plan (results : List Verdict) : String := s!"1..{results.length}"

/-- The texts that a report has for its lines, but for the last one. -/
def reportLines (results : List Verdict) : List String :=
  (results.zipIdx 1).map fun (r, number) => reportLine number r

/-- A report is the lines of the results and the plan, each with its end. -/
theorem report_eq_join (results : List Verdict) :
    report results = String.join ((reportLines results ++ [plan results]).map ended) := by
  simp [report, reportLines, plan, String.join_append, Function.comp_def]

/-- A summary is a heading and a line for each entry, each with its end. -/
theorem summary_eq_join (failures : List FatalFailure) :
    summary failures =
      String.join (((heading failures ++ ":") :: failures.map summaryLine).map ended) := by
  simp [summary, Function.comp_def]

/-- The line of a failure that counts stands in the report at its place. -/
theorem reportLines_of_countsAt {minimum : Level} {results : List Verdict} {place : Nat}
    {f : FatalFailure} (h : CountsAt minimum results place f) :
    (reportLines results)[place]? =
      some s!"not ok {place + 1} - {f.description} # {f.level.name}: {f.message}" := by
  obtain ⟨r, findings, hget, houtcome, -, rfl⟩ := h
  rw [reportLines, List.getElem?_map, List.getElem?_zipIdx, hget]
  simp [reportLine, houtcome, Nat.add_comm]

/-- What grading, report and summary say about results is the same. -/
structure Agreement (results : List Verdict) (minimum : Level) (graded : GradedAudit) : Prop where
  /-- The results are what they were. -/
  results_eq : graded.results = results
  /-- The failures stand in the order of their numbers, and no number occurs twice. -/
  ordered : (graded.failures.getD []).Pairwise fun f g => f.number < g.number
  /-- There is an entry for each place that counts, and for no other one. -/
  mem_iff : ∀ f, f ∈ graded.failures.getD [] ↔ ∃ place, CountsAt minimum results place f
  /-- There are no failures exactly if no place counts. -/
  none_iff : graded.failures = none ↔ ¬∃ place f, CountsAt minimum results place f
  /-- The report consists of its lines, whatever the minimum is. -/
  report_eq : report graded.results =
    String.join ((reportLines results ++ [plan results]).map ended)
  /-- The line at the place of a failure that counts shows its entry. -/
  shown : ∀ place f, CountsAt minimum results place f →
    (reportLines results)[place]? =
      some s!"not ok {place + 1} - {f.description} # {f.level.name}: {f.message}"
  /-- The summary shows the entries in their order. -/
  summary_eq : ∀ failures, graded.failures = some failures →
    summary failures =
      String.join (((heading failures ++ ":") :: failures.map fun f =>
        s!"  {f.number} {f.description} [{f.level.name}]: {f.message}").map ended)
  /-- Against a higher minimum the failures count that are as strong as it. -/
  raised : ∀ higher, minimum ≤ higher →
    (grade results higher).failures.getD [] =
      (graded.failures.getD []).filter (higher ≤ ·.level)

/-- Grading, report and summary agree about all results and every minimum. -/
theorem grade_agrees (results : List Verdict) (minimum : Level) :
    Agreement results minimum (grade results minimum) where
  results_eq := rfl
  ordered := by
    rw [getD_failures_grade]
    exact pairwise_fatals minimum results
  mem_iff f := by
    rw [getD_failures_grade]
    exact mem_fatals_iff
  none_iff := by
    rw [← fatals_eq_nil_iff, failures_grade]
    simp
  report_eq := report_eq_join results
  shown _ _ := reportLines_of_countsAt
  summary_eq failures _ := summary_eq_join failures
  raised higher h := by
    rw [getD_failures_grade, getD_failures_grade]
    exact fatals_of_le h results

end ContainerAudit.Audit
