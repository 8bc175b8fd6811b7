import ContainerAudit.Text.Blank
import Mathlib.Data.List.DropRight

/-!
# Trimming

`trimWhere` drops the elements that satisfy a condition from the start of a list and then from its
end, so its result is the list itself exactly if neither end satisfies the condition.  Whatever
satisfies the condition may be put around a list without a change to the result
(`trimWhere_append`).
-/

namespace ContainerAudit.Text

theorem trimWhere_eq {α : Type} (p : α → Bool) (s : List α) :
    trimWhere p s = (s.dropWhile p).rdropWhile p := rfl

/-- Nothing is left exactly if every element satisfies `p`. -/
theorem trimWhere_eq_nil_iff {α : Type} {p : α → Bool} {s : List α} :
    trimWhere p s = [] ↔ ∀ a ∈ s, p a = true := by
  rw [trimWhere_eq, List.rdropWhile_eq_nil_iff]
  constructor
  · intro h a ha
    rw [← List.takeWhile_append_dropWhile (p := p) (l := s)] at ha
    rcases List.mem_append.mp ha with ha | ha
    · exact List.all_eq_true.mp List.all_takeWhile a ha
    · exact h a ha
  · exact fun h a ha => h a (List.dropWhile_subset _ ha)

/-- What satisfies `p` may stand at both ends. -/
theorem trimWhere_append {α : Type} {p : α → Bool} {x y : List α} (hx : ∀ a ∈ x, p a = true)
    (hy : ∀ a ∈ y, p a = true) (s : List α) : trimWhere p (x ++ s ++ y) = trimWhere p s := by
  rw [trimWhere, trimWhere, List.append_assoc, List.dropWhile_append_of_pos hx,
    List.dropWhile_append]
  split
  · -- Nothing of the list itself is left, and nothing of what stands behind it.
    rename_i hnil
    rw [List.isEmpty_iff.mp hnil, List.dropWhile_eq_nil_iff.mpr hy]
  · have hy' : ∀ a ∈ y.reverse, p a = true := fun a ha => hy a (List.mem_reverse.mp ha)
    rw [List.reverse_append, List.dropWhile_append_of_pos hy']

/-- Trimming takes off only what satisfies `p`. -/
theorem exists_append_trimWhere {α : Type} (p : α → Bool) (s : List α) :
    ∃ x y, s = x ++ trimWhere p s ++ y ∧ (∀ a ∈ x, p a = true) ∧ ∀ a ∈ y, p a = true := by
  have hfront := List.takeWhile_append_dropWhile (p := p) (l := s)
  have hback := congrArg List.reverse
    (List.takeWhile_append_dropWhile (p := p) (l := (s.dropWhile p).reverse))
  rw [List.reverse_append, List.reverse_reverse] at hback
  refine ⟨s.takeWhile p, ((s.dropWhile p).reverse.takeWhile p).reverse, ?_, ?_, ?_⟩
  · rw [trimWhere, List.append_assoc, hback, hfront]
  · exact List.all_eq_true.mp List.all_takeWhile
  · intro a ha
    exact List.all_eq_true.mp List.all_takeWhile a (List.mem_reverse.mp ha)

/-- Trimming only leaves elements out. -/
theorem trimWhere_sublist {α : Type} (p : α → Bool) (s : List α) :
    (trimWhere p s).Sublist s :=
  (List.rdropWhile_prefix p _).sublist.trans (List.dropWhile_sublist p)

/-- Trimming twice is trimming once. -/
theorem trimWhere_trimWhere {α : Type} (p : α → Bool) (s : List α) :
    trimWhere p (trimWhere p s) = trimWhere p s := by
  obtain ⟨x, y, hs, hx, hy⟩ := exists_append_trimWhere p s
  have h := trimWhere_append hx hy (trimWhere p s)
  rw [← hs] at h
  exact h.symm

/-- Trimming takes nothing off a list exactly if none of its ends satisfies `p`. -/
theorem trimWhere_eq_self_iff {α : Type} {p : α → Bool} {s : List α} :
    trimWhere p s = s ↔ (∀ a ∈ s.head?, p a = false) ∧ ∀ a ∈ s.getLast?, p a = false := by
  cases s with
  | nil => simp [trimWhere]
  | cons first rest =>
    have hlast : (∀ a ∈ (first :: rest).getLast?, p a = false) ↔
        (first :: rest).rdropWhile p = first :: rest := by
      rw [List.rdropWhile_eq_self_iff, List.getLast?_eq_some_getLast (List.cons_ne_nil _ _)]
      simp
    rw [hlast, trimWhere_eq]
    cases hfirst : p first with
    | false => simp [hfirst]
    | true =>
      -- The first element is dropped, and what is left is too short.
      have hlt : (rest.dropWhile p).rdropWhile p ≠ first :: rest := by
        intro heq
        have hle := (List.rdropWhile_prefix p (rest.dropWhile p)).length_le
        have hle' : (rest.dropWhile p).length ≤ rest.length := (List.dropWhile_suffix p).length_le
        rw [heq, List.length_cons] at hle
        omega
      simp [hlt, hfirst]

end ContainerAudit.Text
