import ContainerAudit.Document.Load
import ContainerAudit.Proofs.Audit.Grade
import ContainerAudit.Proofs.Check.Line
import ContainerAudit.Proofs.List
import ContainerAudit.Replica.Conforming
import Mathlib.Algebra.Ring.Nat
import Mathlib.Data.List.Forall2

/-!
# The lines of a report

A report gives each result a line of its own, and a summary each failure that counts.  Skips and
failures put their texts into these lines as they are, so the lines hold exactly where no such text
holds a line feed: the line feeds at the ends of the lines are all that a text in as many lines has.

## Key results

- `isReport_iff`, `isSummary_iff`: which results have a report and a summary in lines
- `runAll_lines`: the lines of an audit, and the documents and systems that give them
-/

namespace ContainerAudit

open Text (OneLine)

/-- The text that an outcome puts into the report stays on its line. -/
def Outcome.OneLine : Outcome → Prop
  | .pass => True
  | .skip reason => Text.OneLine reason
  | .fail findings => Text.OneLine findings.message

instance : DecidablePred Outcome.OneLine
  | .pass => .isTrue trivial
  | .skip reason => inferInstanceAs (Decidable (Text.OneLine reason))
  | .fail findings => inferInstanceAs (Decidable (Text.OneLine findings.message))

@[simp] theorem Level.oneLine_name (level : Level) : OneLine level.name := by
  cases level <;> decide

namespace Check

/-- The descriptions of the checks are fixed, and each is one line. -/
private theorem oneLine_description : ∀ c ∈ registry, OneLine c.description := by
  simp only [registry, List.forall_mem_cons]
  decide

/-- A check of a plain document on a plain system puts nothing but lines into the report. -/
private theorem oneLine_outcome {d : Document} {s : System} (hd : d.Plain) (hs : s.Plain)
    {c : Check} (hc : c ∈ registry) : (c.outcome d s).OneLine := by
  have hreports := oneLine_of_mem_registry hd hs c hc
  unfold outcome
  dsimp only
  split
  · cases hrun : c.run d s with
    | ok _ => trivial
    | error findings =>
      have hmessage := Findings.oneLine_message.mpr (hreports findings hrun).2
      -- A skip shows the same text as a failure would.
      simp only [judge]
      split <;> exact hmessage
  · -- The reason of a skip names the platform.
    have hplatform := Document.oneLine_intendedPlatform hd hs
    simp +decide [Outcome.OneLine, hplatform]

end Check

namespace Audit

/-! ## Texts in lines -/

/-- A text consists of lines, each with its end. -/
structure ConsistsOf (text : String) (lines : List String) : Prop where
  text_eq : text = String.join (lines.map ended)
  oneLine : ∀ line ∈ lines, OneLine line

/-- The number of line feeds in several texts. -/
def lineFeeds (texts : List String) : Nat := (texts.map (·.toList.count '\n')).sum

/-- There are no line feeds exactly if each text stays on its line. -/
private theorem lineFeeds_eq_zero_iff {texts : List String} :
    lineFeeds texts = 0 ↔ ∀ text ∈ texts, OneLine text := by
  rw [lineFeeds, List.sum_eq_zero_iff_forall_eq_nat, List.forall_mem_map]
  exact forall₂_congr fun text _ => List.count_eq_zero

/-- Texts with their ends hold a line feed for each end besides their own. -/
private theorem count_join_ended (texts : List String) :
    (String.join (texts.map ended)).toList.count '\n' = texts.length + lineFeeds texts := by
  induction texts with
  | nil => rfl
  | cons text rest ih =>
    have hended : (ended text).toList.count '\n' = text.toList.count '\n' + 1 := by simp [ended]
    rw [List.map_cons, String.join_cons, String.toList_append, List.count_append, ih, hended]
    simp only [lineFeeds, List.map_cons, List.sum_cons, List.length_cons]
    omega

/-- Texts that make up as many lines as there are texts stay on their lines. -/
private theorem ConsistsOf.oneLine_of_length_eq {texts lines : List String}
    (h : ConsistsOf (String.join (texts.map ended)) lines) (hlength : lines.length = texts.length) :
    ∀ text ∈ texts, OneLine text := by
  have hlines : lineFeeds lines = 0 := lineFeeds_eq_zero_iff.mpr h.oneLine
  -- The line feeds of one text, counted in the lines and in the texts.
  have hcount := count_join_ended texts
  rw [h.text_eq, count_join_ended lines, hlines, hlength] at hcount
  exact lineFeeds_eq_zero_iff.mp (by omega)

/-! ## The report -/

/-- The words with which the line of a result begins. -/
def status (number : Nat) (r : Verdict) : String :=
  if r.outcome.isFail then s!"not ok {number} - " else s!"ok {number} - "

/-- A text consists of a line for each result, which says whether the result is a failure, and the
    number of results. -/
def IsReport (results : List Verdict) (text : String) : Prop :=
  ∃ lines, ConsistsOf text (lines ++ [plan results]) ∧
    List.Forall₂ (fun (r, number) line => ∃ rest, line = status number r ++ rest)
      (results.zipIdx 1) lines

/-- The line of a result begins with its status. -/
private theorem exists_reportLine_eq (number : Nat) (r : Verdict) :
    ∃ rest, reportLine number r = status number r ++ rest := by
  obtain ⟨description, level, outcome⟩ := r
  cases outcome with
  | pass => exact ⟨description, rfl⟩
  | skip reason =>
    exact ⟨s!"{description} # SKIP {reason}", by
      simp [reportLine, status, Outcome.isFail, String.append_assoc]⟩
  | fail findings =>
    exact ⟨s!"{description} # {level.name}: {findings.message}", by
      simp [reportLine, status, Outcome.isFail, String.append_assoc]⟩

/-- The line of a result holds exactly if its outcome does. -/
private theorem oneLine_reportLine {number : Nat} {r : Verdict} (h : OneLine r.description) :
    OneLine (reportLine number r) ↔ r.outcome.OneLine := by
  unfold reportLine
  split <;> rename_i heq <;> simp +decide [heq, h, Outcome.OneLine]

private theorem oneLine_plan (results : List Verdict) : OneLine (plan results) := by
  simp +decide [plan]

/-- All lines of a report hold exactly if all outcomes do. -/
private theorem oneLine_reportLines {results : List Verdict}
    (h : ∀ r ∈ results, OneLine r.description) :
    (∀ line ∈ reportLines results, OneLine line) ↔ ∀ r ∈ results, r.outcome.OneLine := by
  have hentries := (List.forall_mem_zipIdx_iff results 1 fun r => OneLine r.description).mpr h
  rw [← List.forall_mem_zipIdx_iff results 1, reportLines, List.forall_mem_map]
  exact forall₂_congr fun entry hentry => oneLine_reportLine (hentries entry hentry)

/-- A report consists of its lines exactly if no outcome breaks the line that it is in. -/
theorem isReport_iff {results : List Verdict} (h : ∀ r ∈ results, OneLine r.description) :
    IsReport results (report results) ↔ ∀ r ∈ results, r.outcome.OneLine := by
  rw [← oneLine_reportLines h, report_eq_join]
  constructor
  · -- Whatever the lines of the text are, there are as many as it was put together from.
    rintro ⟨lines, hlines, hstatus⟩ line hline
    have hlength : lines.length = (reportLines results).length := by
      rw [← hstatus.length_eq, reportLines, List.length_map]
    exact hlines.oneLine_of_length_eq (by simp [hlength]) line (List.mem_append_left _ hline)
  · -- The lines are those that the report was put together from.
    intro hlines
    refine ⟨reportLines results, ⟨rfl, fun line hline => ?_⟩, ?_⟩
    · rcases List.mem_append.mp hline with hline | hline
      · exact hlines line hline
      · exact List.mem_singleton.mp hline ▸ oneLine_plan results
    · rw [reportLines, List.forall₂_map_right_iff]
      exact List.forall₂_same.mpr fun entry _ => exists_reportLine_eq entry.2 entry.1

/-! ## The summary -/

/-- A text consists of a heading and a line for each failure, which begins with the number and the
    description of its check. -/
def IsSummary (failures : List FatalFailure) (text : String) : Prop :=
  ∃ lines, ConsistsOf text ((heading failures ++ ":") :: lines) ∧
    List.Forall₂ (fun f line => ∃ rest, line = s!"  {f.number} {f.description}" ++ rest)
      failures lines

/-- The heading of a summary is a line. -/
private theorem oneLine_heading (failures : List FatalFailure) :
    OneLine (heading failures ++ ":") := by
  simp +decide [heading]

/-- The line of a failure holds exactly if its message does. -/
private theorem oneLine_summaryLine {f : FatalFailure} (h : OneLine f.description) :
    OneLine (summaryLine f) ↔ OneLine f.message := by
  simp +decide [summaryLine, h]

/-- A summary consists of its lines exactly if no message breaks the line that it is in. -/
theorem isSummary_iff {failures : List FatalFailure} (h : ∀ f ∈ failures, OneLine f.description) :
    IsSummary failures (summary failures) ↔ ∀ f ∈ failures, OneLine f.message := by
  have hlines : (∀ line ∈ failures.map summaryLine, OneLine line) ↔
      ∀ f ∈ failures, OneLine f.message := by
    rw [List.forall_mem_map]
    exact forall₂_congr fun f hf => oneLine_summaryLine (h f hf)
  rw [← hlines, summary_eq_join]
  constructor
  · -- As in a report, there are as many lines as texts, here with the heading before them.
    rintro ⟨lines, hconsists, hstart⟩ line hline
    have hlength : lines.length = (failures.map summaryLine).length := by
      rw [← hstart.length_eq, List.length_map]
    exact hconsists.oneLine_of_length_eq (by simp [hlength]) line (List.mem_cons_of_mem _ hline)
  · -- The lines are the texts themselves, and each begins as it should.
    intro h
    refine ⟨failures.map summaryLine, ⟨rfl, ?_⟩, ?_⟩
    · exact List.forall_mem_cons.mpr ⟨oneLine_heading failures, h⟩
    · rw [List.forall₂_map_right_iff]
      refine List.forall₂_same.mpr fun f _ => ⟨s!" [{f.level.name}]: {f.message}", ?_⟩
      simp [summaryLine, String.append_assoc]

/-! ## Audits -/

/-- A failure that counts is that of a result. -/
private theorem exists_of_mem_fatals {minimum : Level} {results : List Verdict} {f : FatalFailure}
    (h : f ∈ fatals minimum results) :
    ∃ r ∈ results, ∃ findings, r.outcome = .fail findings ∧ f.description = r.description ∧
      f.message = findings.message := by
  obtain ⟨place, r, findings, hget, houtcome, -, rfl⟩ := mem_fatals_iff.mp h
  exact ⟨r, List.mem_of_getElem? hget, findings, houtcome, rfl, rfl⟩

/-- The results of an audit are described as its checks are. -/
private theorem oneLine_description_runAll (d : Document) (s : System) :
    ∀ r ∈ runAll d s, OneLine r.description :=
  List.forall_mem_map.mpr Check.oneLine_description

/-- So are the failures that count. -/
private theorem oneLine_description_fatals (d : Document) (s : System) (minimum : Level) :
    ∀ f ∈ fatals minimum (runAll d s), OneLine f.description := by
  intro f hf
  obtain ⟨r, hr, findings, -, hdescription, -⟩ := exists_of_mem_fatals hf
  exact hdescription ▸ oneLine_description_runAll d s r hr

/-- The report of an audit consists of a line for each check and the number of checks exactly if no
    text of a skip or a failure holds a line feed, and the summary of a line for each failure that
    counts exactly if none of their texts does.  Both are so for every document and every system of
    which no text that a check can quote holds one. -/
theorem runAll_lines (d : Document) (s : System) (minimum : Level) :
    let results := runAll d s
    let failures := fatals minimum results
    results.length = Check.registry.length ∧
      (IsReport results (report results) ↔ ∀ r ∈ results, r.outcome.OneLine) ∧
      (IsSummary failures (summary failures) ↔ ∀ f ∈ failures, OneLine f.message) ∧
      (d.Plain → s.Plain →
        IsReport results (report results) ∧ IsSummary failures (summary failures)) := by
  intro results failures
  have hreport := isReport_iff (oneLine_description_runAll d s)
  have hsummary := isSummary_iff (oneLine_description_fatals d s minimum)
  refine ⟨List.length_map _, hreport, hsummary, fun hd hs => ?_⟩
  have houtcomes : ∀ r ∈ runAll d s, r.outcome.OneLine :=
    List.forall_mem_map.mpr fun c hc => Check.oneLine_outcome hd hs hc
  refine ⟨hreport.mpr houtcomes, hsummary.mpr fun f hf => ?_⟩
  -- A message in the summary is also one in the report.
  obtain ⟨r, hr, findings, houtcome, -, hmessage⟩ := exists_of_mem_fatals hf
  have hfindings := houtcomes r hr
  rw [houtcome] at hfindings
  exact hmessage ▸ hfindings

/-- The lines of an audit about a plain message of the day, where another one is set and nobody may
    ask for much. -/
theorem runAll_lines_otherMessage :
    let d : Document :=
      { platform := some { os := "freebsd" }, hostname := some "box",
        process := some { args := ["sh"], env := ["MOTD=hello"] } }
    let s : System :=
      { host := .linux, uid := 0, gid := 0,
        env := fun name => if name = "MOTD" then some "bye" else none
        ask := fun
          | .hostname => .ok "box"
          | .arguments => .ok ["sh"]
          | _ => .error (.ofErrno .denied) }
    (d.Plain ∧ s.Plain) ∧
      IsReport (runAll d s) (report (runAll d s)) ∧
      IsSummary (fatals .must (runAll d s)) (summary (fatals .must (runAll d s))) := by
  intro d s
  have hd : d.Plain := by constructor <;> decide +kernel
  have hdenied : OneLine (IoError.ofErrno .denied).message := by decide
  -- Only two questions are answered, and the refusal of all others is one line.
  have hs : s.Plain := by
    constructor
    · decide
    · intro name value _ hvalue
      have hbye : name = "MOTD" ∧ "bye" = value := by simpa [s] using hvalue
      exact hbye.2 ▸ by decide
    · intro q a _ ha text htext
      cases q <;> cases ha <;> revert text <;> decide
    · intro q e _ he
      cases q <;> cases he <;> exact hdenied
  exact ⟨⟨hd, hs⟩, (runAll_lines d s .must).2.2.2 hd hs⟩

/-- The configuration file of a container with a message of the day of two lines. -/
def twoLineText : String :=
  "\x7b\"root\": \x7b\"path\": \"rootfs\"\x7d, \"process\": " ++
    "\x7b\"args\": [\"sh\"], \"env\": [\"MOTD=hello\\nworld\"]\x7d\x7d"

/-- The document in this file. -/
def twoLineDocument : Document :=
  { root := some { path := "rootfs" }
    process := some { args := ["sh"], env := ["MOTD=hello\nworld"] } }

/-- Where the message is not set, its lines come apart in the report and in the summary. -/
theorem not_isReport_twoLineDocument :
    let s : System := { Replica.conforming twoLineDocument with env := [] }.system .linux
    let results := runAll twoLineDocument s
    (Document.fromJson twoLineText).toOption = some twoLineDocument ∧
      ¬IsReport results (report results) ∧
      ¬IsSummary (fatals .must results) (summary (fatals .must results)) := by
  intro s results
  -- One outcome quotes the message and breaks its line, and it counts as fatal.
  have hreport : ¬∀ r ∈ results, r.outcome.OneLine := by decide +kernel
  have hsummary : ¬∀ f ∈ fatals .must results, OneLine f.message := by decide +kernel
  refine ⟨by decide +kernel, fun h => hreport ?_, fun h => hsummary ?_⟩
  · exact (isReport_iff (oneLine_description_runAll _ s)).mp h
  · exact (isSummary_iff (oneLine_description_fatals _ s .must)).mp h

end Audit

end ContainerAudit
