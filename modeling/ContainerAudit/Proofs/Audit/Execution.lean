import ContainerAudit.Execution
import ContainerAudit.Proofs.Audit.Applicability
import ContainerAudit.Proofs.Audit.Grade
import ContainerAudit.Proofs.List
import ContainerAudit.Replica.Conforming

/-!
# How an execution ends

The status of an execution says whether the document loads and whether a check fails that is strong
enough to count.  A check fails if it applies to the platform of the document and does not hold;
what it is judged to be on the way to the status never hides that.  How the errors of other programs
are worded counts only where they are written out.

## Key results

- `fatals_runAll`: the failures that count are those of the checks that fail
- `examine_ends`: what an execution writes about a document that loads, and its status
- `executeIn_ends`: the same for a bundle, whether its document loads or not
-/

namespace ContainerAudit

/-- A check fails: it applies to the platform of the document and does not hold. -/
def Check.fails (c : Check) (d : Document) (s : System) : Bool :=
  c.applies (d.intendedPlatform s.host) && !(c.run d s).isOk

/-- The outcome of a check that fails carries what it found; no other outcome carries anything. -/
private theorem Check.findings?_outcome (d : Document) (s : System) {c : Check}
    (hc : c ∈ registry) :
    (c.outcome d s).findings? = if c.fails d s then some (c.run d s).findings else none := by
  rw [outcome_of_mem_registry d s hc]
  -- A check that does not apply is skipped, so it matters whether this one does.
  cases happlies : c.applies (d.intendedPlatform s.host) with
  | false => simp [fails, happlies, Outcome.findings?]
  | true =>
    cases hrun : c.run d s <;>
      simp [fails, happlies, hrun, Outcome.findings?, Conclusion.findings, Except.isOk,
        Except.toBool]

namespace Audit

/-- The entries of the checks that fail and are at least as strong as the minimum. -/
def failing (minimum : Level) (d : Document) (s : System) : List FatalFailure :=
  ((Check.registry.zipIdx 1).filter fun (c, _) => c.fails d s && minimum ≤ c.level).map
    fun (c, number) => ⟨number, c.description, c.level, (c.run d s).findings.message⟩

/-- The failures of an audit that count are those of the checks that fail. -/
theorem fatals_runAll (minimum : Level) (d : Document) (s : System) :
    fatals minimum (runAll d s) = failing minimum d s := by
  unfold fatals failing runAll run
  -- Both sides number the checks first, so they are compared entry by entry.
  rw [List.zipIdx_map, List.filterMap_map, ← List.filterMap_eq_map, List.filterMap_filter]
  refine List.filterMap_congr fun (c, number) hmem => ?_
  have hc : c ∈ Check.registry := List.fst_mem_of_mem_zipIdx hmem
  have hfindings : (c.result d s).outcome.findings? = _ := Check.findings?_outcome d s hc
  have hlevel : (c.result d s).level = c.level := rfl
  show fatal? minimum (c.result d s) number = _
  rw [fatal?, hfindings, hlevel]
  by_cases hfails : c.fails d s = true
  · by_cases hle : minimum ≤ c.level
    · simp only [hfails, hle, if_true, Bool.true_and, decide_true]
      rfl
    · simp [hle]
  · simp [hfails]

/-- There are no entries exactly if no check fails that is strong enough. -/
private theorem failing_eq_nil_iff {minimum : Level} {d : Document} {s : System} :
    failing minimum d s = [] ↔
      ¬∃ c ∈ Check.registry, c.fails d s = true ∧ minimum ≤ c.level := by
  have hentries := List.forall_mem_zipIdx_iff Check.registry 1
    fun c => ¬(c.fails d s && minimum ≤ c.level) = true
  rw [failing, List.map_eq_nil_iff, List.filter_eq_nil_iff]
  exact hentries.trans (by simp)

/-! ## Documents that load -/

/-- How an execution ends for a document that loads. -/
structure Ends (minimum : Level) (d : Document) (s : System) (e : Execution) : Prop where
  /-- The report is that of all checks. -/
  out_eq : e.out = report (Check.registry.map (·.result d s))
  /-- The status is one exactly if a check fails that is strong enough. -/
  code_eq_one_iff : e.status.code = 1 ↔
    ∃ c ∈ Check.registry, c.fails d s = true ∧ minimum ≤ c.level
  /-- Then the summary names these checks. -/
  err_of_code_eq_one : e.status.code = 1 → e.err = summary (failing minimum d s)
  /-- Else the status is zero, and nothing is said besides the report. -/
  of_code_ne_one : e.status.code ≠ 1 → e.status.code = 0 ∧ e.err = ""

/-- A check that fails and is strong enough decides how an execution ends. -/
theorem examine_ends (path : Text.Bytes) (minimum : Level) (d : Document) (s : System) :
    Ends minimum d s (examine path d minimum s) := by
  have hfailures := failures_grade (runAll d s) minimum
  rw [fatals_runAll] at hfailures
  by_cases hnil : failing minimum d s = []
  · -- Nothing counts, so there is no summary.
    rw [if_pos hnil] at hfailures
    have hnone := failing_eq_nil_iff.mp hnil
    simp only [examine, hfailures]
    exact ⟨rfl, iff_of_false (by simp [ExitStatus.code]) hnone, by simp [ExitStatus.code],
      fun _ => ⟨rfl, rfl⟩⟩
  · -- Something counts, and the summary is that of all that does.
    rw [if_neg hnil] at hfailures
    have hsome := not_not.mp (mt failing_eq_nil_iff.mpr hnil)
    simp only [examine, hfailures]
    exact ⟨rfl, iff_of_true rfl hsome, fun _ => rfl, fun h => absurd rfl h⟩

/-- A minimum that is raised leaves no more checks that count. -/
private theorem Ends.code_eq_zero_of_le {lower higher : Level} {d : Document} {s : System}
    {e e' : Execution} (h : Ends lower d s e) (h' : Ends higher d s e') (hle : lower ≤ higher)
    (hcode : e.status.code = 0) : e'.status.code = 0 := by
  refine (h'.of_code_ne_one fun hone => ?_).1
  -- A check that counts against the higher minimum counts against the lower one.
  obtain ⟨c, hc, hfails, hlevel⟩ := h'.code_eq_one_iff.mp hone
  have hone : e.status.code = 1 :=
    h.code_eq_one_iff.mpr ⟨c, hc, hfails, Level.le_trans hle hlevel⟩
  omega

/-! ## Bundles -/

/-- An execution ends with two exactly if the document of the bundle does not load; then it says why
    and nothing else counts.  Else it writes the report of all checks, and a check that fails and is
    strong enough decides whether it ends with one and a summary or with zero.  Raising the minimum
    never turns zero into one. -/
theorem executeIn_ends (w : Wording) (t : FileTree) (directory : Text.Bytes) :
    (∀ minimum s, (executeIn w t directory minimum s).status.code = 2 ↔
      ∃ cause, Document.loadFrom t directory = .error cause) ∧
    (∀ cause, Document.loadFrom t directory = .error cause →
      ∃ e : Execution, e.out = "" ∧ e.err = cause.message w ++ "\n" ∧
        ∀ minimum s, executeIn w t directory minimum s = e) ∧
    ∀ d, Document.loadFrom t directory = .ok d → ∀ s,
      (∀ minimum, Ends minimum d s (executeIn w t directory minimum s)) ∧
      ∀ lower higher, lower ≤ higher →
        (executeIn w t directory lower s).status.code = 0 →
          (executeIn w t directory higher s).status.code = 0 := by
  cases hload : Document.loadFrom t directory with
  | error cause =>
    -- The refusal is made from the cause alone.
    have hrefuse (minimum : Level) (s : System) :
        executeIn w t directory minimum s = refuse w cause := by
      rw [executeIn, hload, execute]
    refine ⟨fun minimum s => ?_, fun cause' h => ?_, by simp⟩
    · rw [hrefuse]
      exact iff_of_true rfl ⟨cause, rfl⟩
    · obtain rfl := Except.error.inj h
      exact ⟨refuse w cause, rfl, rfl, hrefuse⟩
  | ok d =>
    have hends (minimum : Level) (s : System) :
        Ends minimum d s (executeIn w t directory minimum s) := by
      rw [executeIn, hload, execute]
      exact examine_ends _ minimum d s
    refine ⟨fun minimum s => ?_, by simp, fun d' h s => ?_⟩
    · -- The status is one or zero, so it is not two.
      have hzero := (hends minimum s).of_code_ne_one
      refine iff_of_false (fun htwo => ?_) (by simp)
      have hcode := (hzero (by omega)).1
      omega
    · obtain rfl := Except.ok.inj h
      exact ⟨fun minimum => hends minimum s,
        fun lower higher => (hends lower s).code_eq_zero_of_le (hends higher s)⟩

/-- The bundle with a configuration file in the working directory. -/
def bundleOf (text : String) : FileTree where
  nodes := [([], .directory 0o755),
    ([Text.encode "config.json"], .regular 0o644 (Text.encode text))]
  cwd := []

/-- A configuration file that is no JSON: where a key should stand, there is none. -/
def brokenText : String := "\x7b not json"

/-- The words of a reader that counts lines and columns, for this file. -/
def lineWording : Wording where
  ofReader
    | .unread cause => cause.message
    | .undecoded _ _ => "key must be a string at line 1 column 3"
  readerInLog
    | .unread cause => s!"Error({Text.quote cause.message}, line: 0, column: 0)"
    | .undecoded _ _ => "Error(\"key must be a string\", line: 1, column: 3)"
  systemInLog cause := Text.quote cause.message

/-- The configuration file of a container with a name. -/
def boxText : String :=
  "\x7b\"hostname\": \"box\", \"root\": \x7b\"path\": \"rootfs\"\x7d, " ++
    "\"process\": \x7b\"args\": [\"sh\"]\x7d\x7d"

/-- The document in this file. -/
def boxDocument : Document where
  hostname := some "box"
  root := some { path := "rootfs" }
  process := some { args := ["sh"] }

/-- A container with another name. -/
def misnamedBox : System :=
  { Replica.conforming boxDocument with hostname := "crate" }.system .linux

/-- A container that has another name fails one check and a conforming one none, whatever the
    minimum.  The broken file is refused with the words of the reader. -/
theorem executeIn_misnamed_or_broken :
    let conforming : System := (Replica.conforming boxDocument).system .linux
    let failed := executeIn lineWording (bundleOf boxText) [] .must misnamedBox
    Document.loadFrom (bundleOf boxText) [] = .ok boxDocument ∧
      (failed.status.code = 1 ∧ failed.err =
        "1 fatal failure(s):\n  10 hostname [MUST]: Hostname expected: box, actual: crate\n") ∧
      (executeIn lineWording (bundleOf boxText) [] .may conforming).status.code = 0 ∧
      (executeIn lineWording (bundleOf boxText) [] .must conforming).status.code = 0 ∧
      ∃ refused : Execution, refused.status.code = 2 ∧ refused.out = "" ∧
        refused.err =
          "Failed to parse configuration: key must be a string at line 1 column 3\n" ∧
        ∀ minimum s, executeIn lineWording (bundleOf brokenText) [] minimum s = refused := by
  intro conforming failed
  have hload : Document.loadFrom (bundleOf boxText) [] = .ok boxDocument := rfl
  obtain ⟨-, -, hends⟩ := executeIn_ends lineWording (bundleOf boxText) []
  -- The name of the container is the one thing that is wrong.
  have hfails : ∃ c ∈ Check.registry,
      c.fails boxDocument misnamedBox = true ∧ Level.must ≤ c.level := by
    decide +kernel
  have hmisnamed : Ends .must boxDocument misnamedBox failed := (hends _ hload misnamedBox).1 .must
  have hone : failed.status.code = 1 := hmisnamed.code_eq_one_iff.mpr hfails
  have herr : failed.err = _ := hmisnamed.err_of_code_eq_one hone
  obtain ⟨hconforming, hraised⟩ := hends _ hload conforming
  -- Nothing is wrong with the conforming one, whatever counts.
  have hnone : ¬∃ c ∈ Check.registry,
      c.fails boxDocument conforming = true ∧ Level.may ≤ c.level := by
    decide +kernel
  have hnotOne := mt (hconforming .may).code_eq_one_iff.mp hnone
  have hzero := ((hconforming .may).of_code_ne_one hnotOne).1
  have hraise := hraised .may .must (by decide) hzero
  refine ⟨hload, ⟨hone, herr.trans (by decide +kernel)⟩, hzero, hraise, ?_⟩
  -- What the reader meets in the broken file.
  obtain ⟨cause, hcause, hmessage⟩ : ∃ cause,
      Document.loadFrom (bundleOf brokenText) [] = .error cause ∧
        cause.message lineWording =
          "Failed to parse configuration: key must be a string at line 1 column 3" :=
    ⟨_, rfl, rfl⟩
  obtain ⟨hrefused, hsame, -⟩ := executeIn_ends lineWording (bundleOf brokenText) []
  obtain ⟨refused, hout, hrefusal, hall⟩ := hsame cause hcause
  have htwo := (hrefused .must misnamedBox).mpr ⟨cause, hcause⟩
  rw [hall] at htwo
  exact ⟨refused, htwo, hout, hrefusal.trans (by rw [hmessage]; rfl), hall⟩

end Audit

end ContainerAudit
