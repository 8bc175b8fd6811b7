import ContainerAudit.Audit
import ContainerAudit.Proofs.Check.Isolation
import ContainerAudit.Replica.Basic
import Mathlib.Data.List.Forall2

/-!
# Failures stay where they are

Where a topic of questions fails on a replica, an audit gives the same results as before, except
that a check that reads the topic may fail for want of an answer, and with nothing else to say.

## Key results

- `Replica.degraded_fail`: a replica with a failing topic is a degraded system
- `Audit.runAll_fail`: the two audits, result by result
-/

namespace ContainerAudit

/-- Failing questions change no data. -/
private theorem Replica.lookUp_fail (r : Replica) (topic : Question.Topic) (q : Question) :
    (r.fail topic).lookUp q = r.lookUp q := by
  cases q with
  | idMap kind => cases kind <;> rfl
  | _ => rfl

/-- A topic fails if it did before or is the one that is made to fail. -/
private theorem Replica.mem_failing_fail (r : Replica) (topic t : Question.Topic) :
    t ∈ (r.fail topic).failing ↔ t ∈ r.failing ∨ t = topic := by
  simp only [Replica.fail]
  -- A topic that fails already is not listed again.
  split
  · rename_i hmem
    exact ⟨.inl, fun h => h.elim id fun heq => heq ▸ hmem⟩
  · simp

/-- A question is answered as before, or its topic now fails. -/
private theorem Replica.answer_fail (r : Replica) (topic : Question.Topic) (q : Question) :
    (r.fail topic).answer q = r.answer q ∨
      q.topic = topic ∧ topic ≠ .writeProbe ∧
        (r.fail topic).answer q = .error (failure topic) := by
  unfold Replica.answer
  rw [r.lookUp_fail topic q]
  by_cases hprobe : q.topic = .writeProbe
  · simp [hprobe] -- probes are answered whatever fails
  · by_cases hq : q.topic = topic
    · -- The question fails now, whether or not it did before.
      subst hq
      simp [hprobe, r.mem_failing_fail]
    · simp [hq, r.mem_failing_fail]

/-- Making a topic fail degrades the system that a replica stands for. -/
theorem Replica.degraded_fail (r : Replica) (host : Platform) (topic : Question.Topic) :
    System.Degraded topic (failure topic) (r.system host) ((r.fail topic).system host) where
  host := rfl
  uid := rfl
  gid := rfl
  env := rfl
  ne_notFound := by simp [failure]
  ne_invalidInput := by simp [failure]
  ask := r.answer_fail topic

namespace Check

/-- A check that finds only that an answer is missing fails with that. -/
private theorem judge_unanswered (what : String) (cause : IoError) :
    judge (.error [.unanswered what cause]) = .fail [.unanswered what cause] := rfl

/-- The outcome of a check on a degraded system. -/
private theorem outcome_of_degraded {topic : Question.Topic} {cause : IoError} {s s' : System}
    (h : System.Degraded topic cause s s') {c : Check} (hc : c ∈ registry) (d : Document) :
    c.outcome d s' = c.outcome d s ∨
      c.description ∈ topic.readers ∧
        ∃ what, c.outcome d s' = .fail [.unanswered what cause] := by
  obtain ⟨reads, hisolated, hreads⟩ := isolated_of_mem_registry c hc
  unfold outcome
  rw [h.host]
  dsimp only
  split
  · rcases hisolated topic cause s s' h d with heq | ⟨hread, what, hstopped⟩
    · exact .inl (by rw [heq])
    · exact .inr ⟨hreads topic hread, what, by rw [hstopped, judge_unanswered]⟩
  · exact .inl rfl

end Check

/-- What a failing topic does to an audit: the results are the same in number, order, description
    and level, and each outcome is as before or, for a reader of the topic, the one missing
    answer. -/
theorem Audit.runAll_fail (d : Document) (r : Replica) (host : Platform)
    (topic : Question.Topic) :
    List.Forall₂
      (fun before after : Verdict =>
        after.description = before.description ∧ after.level = before.level ∧
          (after.outcome = before.outcome ∨
            before.description ∈ topic.readers ∧
              ∃ what, after.outcome =
                .fail [.unanswered what ⟨.other, topic.name ++ " query failed"⟩]))
      (runAll d (r.system host)) (runAll d ((r.fail topic).system host)) := by
  have hcause : (⟨.other, topic.name ++ " query failed"⟩ : IoError) = Replica.failure topic := rfl
  simp only [runAll, run, List.forall₂_map_left_iff, List.forall₂_map_right_iff, hcause]
  refine List.forall₂_same.mpr fun c hc => ⟨rfl, rfl, ?_⟩
  exact Check.outcome_of_degraded (r.degraded_fail host topic) hc d

end ContainerAudit
