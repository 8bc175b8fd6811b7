import ContainerAudit.Check.Finding

/-!
# The steps of a check

A check that got an answer goes on with it, and one that is not stopped concludes from what it
collected.  Where each step finds only findings with some property, what the check reports has it
too (`Reports`), and a check that does not hold reports at least one finding.

## Key results

- `System.query_of_ok`, `System.query_of_error`: what comes of a question
- `Findings.collect_cons`: what one item more adds to a collection
- `liftM_bind_conclude`: what a check concludes from its last step
- `Reports.query`, `Findings.all_settle_collect`: what a check reports, one step at a time
-/

namespace ContainerAudit

/-! ## Questions -/

/-- A check that got an answer goes on with it. -/
theorem System.query_of_ok {s : System} {q : Question} {a : q.Answer} (h : s.ask q = .ok a)
    (what : String) : s.query q what = .ok a := by
  rw [query, h]
  rfl

/-- The finding that there is no answer names what was asked for, and the error. -/
theorem System.query_of_error {s : System} {q : Question} {e : IoError} (h : s.ask q = .error e)
    (what : String) : s.query q what = .error (.unanswered what e) := by
  rw [query, h]
  rfl

namespace Findings

/-! ## Steps -/

@[simp] theorem ok_bind {ε α β : Type} (a : α) (f : α → Except ε β) :
    (Except.ok a >>= f) = f a := rfl

/-- The findings that a step leaves: those that it made, or the one that stopped it. -/
def settle : Except Finding Findings → Findings
  | .ok findings => findings
  | .error finding => [finding]

@[simp] theorem settle_pure (fs : Findings) : settle (pure fs) = fs := rfl

@[simp] theorem settle_ok (fs : Findings) : settle (.ok fs) = fs := rfl

@[simp] theorem settle_error (f : Finding) : settle (.error f) = [f] := rfl

/-- Nothing is found where a value is compared with itself. -/
@[simp] theorem compare_self {α : Type} [DecidableEq α] (what : String) (display : α → String)
    (a : α) : compare what display a a = [] := by
  simp [compare, ensure]

/-- Nothing is found by a comparison exactly if the actual value is the expected one. -/
theorem compare_eq_nil_iff {α : Type} [DecidableEq α] {what : String} {display : α → String}
    {expected actual : α} : compare what display expected actual = [] ↔ actual = expected := by
  simp [compare, ensure]

/-! ## Collecting -/

@[simp] theorem collect_nil {α : Type} (check : α → Except Finding Findings) :
    collect [] check = .ok [] := rfl

/-- A finding that stops the check at the first item is all that is left; else what is found about
    the other items is added. -/
theorem collect_cons {α : Type} (a : α) (rest : List α) (check : α → Except Finding Findings) :
    collect (a :: rest) check = match check a with
      | .ok fs => (collect rest check).map (fs ++ ·)
      | .error f => .error f := by
  rw [collect, collect, List.mapM_cons]
  cases check a with
  | error f => rfl
  | ok fs => cases rest.mapM check <;> rfl

/-- Nothing is found about several items exactly if nothing is found about each and nothing stops
    the check. -/
theorem settle_collect_eq_nil_iff {α : Type} {items : List α}
    {check : α → Except Finding Findings} :
    settle (collect items check) = [] ↔ ∀ a ∈ items, check a = .ok [] := by
  induction items with
  | nil => simp
  | cons a rest ih =>
    rw [collect_cons, List.forall_mem_cons, ← ih]
    cases hcheck : check a with
    | error f => simp
    | ok fs => cases hrest : collect rest check <;> simp [Except.map]

/-! ## Properties of all findings -/

/-- Every finding has a property. -/
def All (P : Finding → Prop) (fs : Findings) : Prop := ∀ f ∈ fs, P f

section All

variable {α : Type} {P : Finding → Prop}

@[simp] theorem all_nil : All P [] := List.forall_mem_nil P

@[simp] theorem all_singleton {f : Finding} : All P [f] ↔ P f := List.forall_mem_singleton

@[simp] theorem all_append {fs gs : Findings} : All P (fs ++ gs) ↔ All P fs ∧ All P gs :=
  List.forall_mem_append

/-- What is found about several items. -/
@[simp] theorem all_flatMap {items : List α} {found : α → Findings} :
    All P (items.flatMap found) ↔ ∀ a ∈ items, All P (found a) :=
  List.forall_mem_flatMap

/-- One finding about each of several items. -/
@[simp] theorem all_map {items : List α} {found : α → Finding} :
    All P (items.map found) ↔ ∀ a ∈ items, P (found a) :=
  List.forall_mem_map

/-- A condition leaves its finding only if it does not hold. -/
@[simp] theorem all_ensure {holds : Bool} {finding : Finding} :
    All P (ensure holds finding) ↔ (holds = false → P finding) := by
  cases holds <;> simp [ensure]

/-- A comparison leaves a mismatch only if the values differ. -/
@[simp] theorem all_compare [DecidableEq α] {what : String} {display : α → String}
    {expected actual : α} :
    All P (compare what display expected actual) ↔
      (actual ≠ expected → P (.mismatch what (display expected) (display actual))) := by
  simp [compare]

/-- What comes of a question is found from its answer, or says that there is none. -/
theorem all_settle_query {s : System} {q : Question} {what : String}
    {f : q.Answer → Except Finding Findings}
    (hnone : ∀ e, s.ask q = .error e → P (.unanswered what e))
    (hsome : ∀ a, s.ask q = .ok a → All P (settle (f a))) :
    All P (settle (s.query q what >>= f)) := by
  cases h : s.ask q with
  | error e =>
    rw [System.query_of_error h]
    exact all_singleton.mpr (hnone e h)
  | ok a =>
    rw [System.query_of_ok h]
    exact hsome a h

/-- What is found about several items is found about one of them. -/
theorem all_settle_collect {items : List α} {check : α → Except Finding Findings}
    (h : ∀ a ∈ items, All P (settle (check a))) : All P (settle (collect items check)) := by
  induction items with
  | nil => simp
  | cons a rest ih =>
    have ha := h a List.mem_cons_self
    have hrest := ih fun a' ha' => h a' (List.mem_cons_of_mem _ ha')
    rw [collect_cons]
    -- Either one of the two steps stops the check, or both give their findings.
    cases hcheck : check a with
    | error f => rwa [hcheck] at ha
    | ok fs =>
      rw [hcheck] at ha
      cases hcollect : collect rest check with
      | error f => rwa [hcollect] at hrest
      | ok gs =>
        rw [hcollect] at hrest
        exact all_append.mpr ⟨ha, hrest⟩

end All

end Findings

/-! ## Conclusions -/

/-- What a check found.  One that holds found nothing. -/
def Conclusion.findings : Conclusion → Findings
  | .ok () => []
  | .error findings => findings

namespace Check

@[simp] theorem liftM_ok {α : Type} (a : α) :
    (liftM (Except.ok a : Except Finding α) : Except Findings α) = .ok a := rfl

/-- A finding that stops a step is the only one that the check reports. -/
@[simp] theorem liftM_error {α : Type} (f : Finding) :
    (liftM (Except.error f : Except Finding α) : Except Findings α) = .error [f] := rfl

@[simp] theorem error_bind {α β : Type} (fs : Findings) (f : α → Except Findings β) :
    (Except.error fs >>= f) = .error fs := rfl

@[simp] theorem conclude_nil : conclude [] = .ok () := rfl

theorem conclude_of_ne_nil {fs : Findings} (h : fs ≠ []) : conclude fs = .error fs := by
  simp [conclude, h]

/-- A check holds exactly if nothing was found. -/
@[simp] theorem conclude_eq_ok_iff {fs : Findings} : conclude fs = .ok () ↔ fs = [] := by
  by_cases h : fs = [] <;> simp [conclude, h]

/-- A check that does not hold reports what was found, which is something. -/
@[simp] theorem conclude_eq_error_iff {fs gs : Findings} :
    conclude fs = .error gs ↔ fs = gs ∧ gs ≠ [] := by
  by_cases h : fs = []
  · simp +contextual [conclude, h, eq_comm]
  · simp only [conclude_of_ne_nil h, Except.error.injEq]
    exact ⟨fun heq => ⟨heq, heq ▸ h⟩, And.left⟩

/-- What was found can be read off the conclusion. -/
@[simp] theorem findings_conclude (fs : Findings) : (conclude fs).findings = fs := by
  by_cases h : fs = []
  · rw [h]
    rfl
  · rw [conclude_of_ne_nil h]
    rfl

/-- A check holds if the actual value is the expected one. -/
theorem expect_self {α : Type} [DecidableEq α] (what : String) (display : α → String) (a : α) :
    expect what display a a = .ok () := by
  simp [expect, require]

/-- A check concludes from the findings that its last step leaves, for a finding that stops it is
    the only one that it reports. -/
theorem liftM_bind_conclude (x : Except Finding Findings) :
    (liftM x >>= conclude) = conclude (Findings.settle x) := by
  cases x <;> rfl

/-! ## Reports -/

/-- A check that does not hold reports something, and each finding that it reports has a
    property. -/
def Reports (P : Finding → Prop) (c : Conclusion) : Prop :=
  ∀ fs, c = .error fs → fs ≠ [] ∧ fs.All P

section Reports

variable {α : Type} {P : Finding → Prop}

@[simp] theorem reports_ok : Reports P (.ok ()) := fun _ h => nomatch h

/-- A check that ends with findings reports these. -/
@[simp] theorem reports_error {fs : Findings} : Reports P (.error fs) ↔ fs ≠ [] ∧ fs.All P :=
  ⟨fun h => h fs rfl, fun h _ heq => Except.error.inj heq ▸ h⟩

/-- What was found is reported, if it is something. -/
@[simp] theorem reports_conclude {fs : Findings} : Reports P (conclude fs) ↔ fs.All P := by
  by_cases h : fs = []
  · simp [h]
  · simp [conclude_of_ne_nil h, h]

/-- A condition reports its finding only if it does not hold. -/
@[simp] theorem reports_require {holds : Bool} {finding : Finding} :
    Reports P (require holds finding) ↔ (holds = false → P finding) := by
  cases holds <;> simp [require]

/-- An expected value reports a mismatch only if the actual one differs. -/
@[simp] theorem reports_expect [DecidableEq α] {what : String} {display : α → String}
    {expected actual : α} :
    Reports P (expect what display expected actual) ↔
      (actual ≠ expected → P (.mismatch what (display expected) (display actual))) := by
  simp [expect]

/-- A check that asks a question reports what follows from the answer, or that there is none. -/
theorem Reports.query {s : System} {q : Question} {what : String} {f : q.Answer → Conclusion}
    (hnone : ∀ e, s.ask q = .error e → P (.unanswered what e))
    (hsome : ∀ a, s.ask q = .ok a → Reports P (f a)) :
    Reports P (liftM (s.query q what) >>= f) := by
  cases h : s.ask q with
  | error e =>
    rw [System.query_of_error h]
    simpa using hnone e h
  | ok a =>
    rw [System.query_of_ok h]
    exact hsome a h

end Reports

end Check

end ContainerAudit
