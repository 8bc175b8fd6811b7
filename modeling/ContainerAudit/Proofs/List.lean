import Mathlib.Data.List.Forall2

/-!
# List lemmas

Facts about `List` that are useful beyond paths and mounts.
-/

namespace List

variable {α β γ : Type}

/-- Numbering the elements of a list leaves out none and adds none. -/
theorem forall_mem_zipIdx_iff (l : List α) (k : Nat) (p : α → Prop) :
    (∀ entry ∈ l.zipIdx k, p entry.1) ↔ ∀ a ∈ l, p a := by
  have hmap : (∀ a ∈ (l.zipIdx k).map Prod.fst, p a) ↔ ∀ entry ∈ l.zipIdx k, p entry.1 :=
    forall_mem_map
  rw [← hmap, zipIdx_map_fst]

/-- The elements at the start of a list that satisfy a condition, and what stands behind them. -/
theorem exists_append_of_head? (p : α → Bool) (l : List α) :
    ∃ front rest,
      l = front ++ rest ∧ (∀ a ∈ front, p a = true) ∧ ∀ a ∈ rest.head?, p a = false := by
  refine ⟨l.takeWhile p, l.dropWhile p, takeWhile_append_dropWhile.symm,
    all_eq_true.mp all_takeWhile, fun a ha => ?_⟩
  have hhead := head?_dropWhile_not p l
  rw [Option.mem_def.mp ha] at hhead
  exact hhead

/-- No element of a piece is one at which the list is split. -/
theorem not_of_mem_splitOnP {p : α → Bool} {l piece : List α} (h : piece ∈ l.splitOnP p) :
    ∀ a ∈ piece, p a = false := by
  induction l generalizing piece with
  | nil => simp_all
  | cons x xs ih =>
    rw [splitOnP_cons_eq_if_modifyHead] at h
    -- A separator opens a new piece; any other element goes to the front of the first one.
    split at h
    · rcases mem_cons.mp h with rfl | h
      · simp
      · exact ih h
    · rename_i hx
      obtain ⟨first, rest, heq⟩ := exists_cons_of_ne_nil (splitOnP_ne_nil p xs)
      rw [heq, modifyHead_cons] at h
      rcases mem_cons.mp h with rfl | h
      · exact forall_mem_cons.mpr ⟨by simpa using hx, ih (heq ▸ mem_cons_self)⟩
      · exact ih (heq ▸ mem_cons_of_mem _ h)

/-- A piece of a split list does not contain the separator. -/
theorem not_mem_of_mem_splitOn [BEq α] [LawfulBEq α] {a : α} {l piece : List α}
    (h : piece ∈ l.splitOn a) : a ∉ piece := by
  intro ha
  have hfalse := not_of_mem_splitOnP h a ha
  simp at hfalse

/-- A separator follows each piece but the last one. -/
theorem intercalate_concat (sep : List α) (pieces : List (List α)) (last : List α) :
    sep.intercalate (pieces ++ [last]) = pieces.flatMap (· ++ sep) ++ last := by
  induction pieces with
  | nil => simp
  | cons first rest ih =>
    obtain ⟨second, others, hothers⟩ : ∃ second others, rest ++ [last] = second :: others :=
      exists_cons_of_ne_nil (by simp)
    rw [cons_append, hothers, intercalate_cons_cons, ← hothers, ih]
    simp

/-- What stands in joined pieces stands in the separator or in a piece. -/
theorem mem_of_mem_intercalate {sep : List α} {pieces : List (List α)} {a : α}
    (h : a ∈ sep.intercalate pieces) : a ∈ sep ∨ ∃ piece ∈ pieces, a ∈ piece := by
  rcases eq_nil_or_concat' pieces with rfl | ⟨before, last, rfl⟩
  · simp at h
  · rw [intercalate_concat, mem_append, mem_flatMap] at h
    rcases h with ⟨piece, hpiece, ha⟩ | ha
    · rcases mem_append.mp ha with ha | ha
      · exact .inr ⟨piece, mem_append_left _ hpiece, ha⟩
      · exact .inl ha
    · exact .inr ⟨last, by simp, ha⟩

/-- Leaving pieces out, each with a separator beside it, leaves elements out of the joined list. -/
theorem Sublist.intercalate (sep : List α) {pieces pieces' : List (List α)}
    (h : pieces <+ pieces') : sep.intercalate pieces <+ sep.intercalate pieces' := by
  induction h with
  | slnil => exact .refl _
  | @cons kept rest piece h ih =>
    -- A piece goes with the separator behind it, unless it is the last one.
    by_cases hrest : rest = []
    · subst hrest
      rw [sublist_nil.mp h]
      exact nil_sublist _
    · rw [intercalate_cons_of_ne_nil hrest]
      exact ih.trans (sublist_append_right _ _)
  | @cons_cons kept rest piece h ih =>
    by_cases hrest : rest = []
    · subst hrest
      rw [sublist_nil.mp h]
    · rw [intercalate_cons_of_ne_nil hrest]
      by_cases hkept : kept = []
      · -- The separator behind the last piece that is kept goes too.
        subst hkept
        rw [intercalate_singleton, append_assoc]
        exact sublist_append_left _ _
      · rw [intercalate_cons_of_ne_nil hkept]
        exact ih.append_left _

/-- Lists whose elements agree under a function, one by one, have the same image. -/
theorem map_eq_of_forall₂ {R : α → β → Prop} {f : α → γ} {g : β → γ} {l : List α} {l' : List β}
    (h : Forall₂ R l l') (hfg : ∀ a b, R a b → g b = f a) : l'.map g = l.map f := by
  induction h with
  | nil => rfl
  | cons hab _ ih => rw [map_cons, map_cons, hfg _ _ hab, ih]

/-- The last elements of lists that are related one by one are related. -/
theorem rel_getLast? {R : α → β → Prop} {l : List α} {l' : List β} (h : Forall₂ R l l') :
    Option.Rel R l.getLast? l'.getLast? := by
  have hreverse := rel_reverse h
  rw [← head?_reverse, ← head?_reverse]
  generalize l.reverse = r, l'.reverse = r' at hreverse
  cases hreverse with
  | nil => exact .none
  | cons hab _ => exact .some hab

/-- A property of everything that is related to something holds of all elements of a related
    list. -/
theorem forall_mem_of_forall₂ {R : α → β → Prop} {p : α → Prop} {l : List α} {l' : List β}
    (h : Forall₂ R l l') (hp : ∀ a b, R a b → p a) : ∀ a ∈ l, p a := by
  induction h with
  | nil => simp
  | cons hab _ ih => exact forall_mem_cons.mpr ⟨hp _ _ hab, ih⟩

/-- A list is related to some list, one by one, exactly if each element is related to something. -/
theorem exists_forall₂_iff {R : α → β → Prop} {l : List α} :
    (∃ l', Forall₂ R l l') ↔ ∀ a ∈ l, ∃ b, R a b := by
  constructor
  · rintro ⟨l', h⟩
    exact forall_mem_of_forall₂ h fun a b hab => ⟨b, hab⟩
  · intro h
    induction l with
    | nil => exact ⟨[], .nil⟩
    | cons a l ih =>
      obtain ⟨⟨b, hab⟩, hl⟩ := forall_mem_cons.mp h
      obtain ⟨l', hl'⟩ := ih hl
      exact ⟨b :: l', .cons hab hl'⟩

/-- Two lists that are related to a third one, one by one, are related to each other. -/
theorem forall₂_of_forall₂ {R : α → β → Prop} {S : α → γ → Prop} {T : β → γ → Prop} {l : List α}
    {l' : List β} {l'' : List γ} (hR : Forall₂ R l l') (hS : Forall₂ S l l'')
    (h : ∀ a b c, b ∈ l' → R a b → S a c → T b c) : Forall₂ T l' l'' := by
  induction hR generalizing l'' with
  | nil =>
    cases hS
    exact .nil
  | cons hab _ ih =>
    cases hS with
    | cons hac hrest =>
      refine .cons (h _ _ _ mem_cons_self hab hac) (ih hrest fun a b c hb => ?_)
      exact h a b c (mem_cons_of_mem _ hb)

/-- Working through a list succeeds with the results of its elements, one by one. -/
theorem mapM_eq_ok_iff {ε : Type} {f : α → Except ε β} {l : List α} {results : List β} :
    l.mapM f = .ok results ↔ Forall₂ (fun a b => f a = .ok b) l results := by
  induction l generalizing results with
  | nil => simp [pure, Except.pure, eq_comm]
  | cons a l ih =>
    rw [mapM_cons, forall₂_cons_left_iff]
    cases ha : f a with
    | error e => simp [bind, Except.bind]
    | ok b =>
      cases hl : l.mapM f with
      | error e =>
        -- By induction no list of results belongs to the rest.
        have hnone (rest : List β) : ¬Forall₂ (fun a b => f a = .ok b) l rest := by
          rw [← ih, hl]
          nofun
        simp [bind, Except.bind, hnone]
      | ok rest =>
        have hrest (other : List β) : Forall₂ (fun a b => f a = .ok b) l other ↔ rest = other := by
          rw [← ih, hl, Except.ok.injEq]
        simp [bind, Except.bind, pure, Except.pure, hrest, eq_comm]

/-- Results that are put together one after another are those of working through the list. -/
theorem foldlM_map_eq {ε : Type} {f : α → Except ε β} {g : γ → α → β → γ} {l : List α} {init : γ} :
    l.foldlM (fun c a => (f a).map (g c a)) init =
      (l.mapM f).map fun results => (l.zip results).foldl (fun c p => g c p.1 p.2) init := by
  induction l generalizing init with
  | nil => rfl
  | cons a l ih =>
    rw [foldlM_cons, mapM_cons]
    cases f a with
    | error e => rfl
    | ok b =>
      show l.foldlM (fun c a => (f a).map (g c a)) (g init a b) = _
      rw [ih]
      cases l.mapM f <;> rfl

/-- Working through a list fails with the error of the first element that fails. -/
theorem mapM_eq_error_iff {ε : Type} {f : α → Except ε β} {l : List α} {e : ε} :
    l.mapM f = .error e ↔ ∃ before a after, l = before ++ a :: after ∧
      (∀ b ∈ before, ∃ result, f b = .ok result) ∧ f a = .error e := by
  constructor
  · intro h
    induction l with
    | nil => cases h
    | cons a l ih =>
      rw [mapM_cons] at h
      cases ha : f a with
      | error e' =>
        rw [ha] at h
        obtain rfl : e' = e := Except.error.inj h
        exact ⟨[], a, l, rfl, by simp, ha⟩
      | ok b =>
        -- The first element succeeds, so the error is one of the rest.
        cases hl : l.mapM f with
        | ok rest =>
          rw [ha, hl] at h
          cases h
        | error e' =>
          rw [ha, hl] at h
          obtain rfl : e' = e := Except.error.inj h
          obtain ⟨before, a', after, rfl, hbefore, ha'⟩ := ih hl
          exact ⟨a :: before, a', after, rfl, forall_mem_cons.mpr ⟨⟨b, ha⟩, hbefore⟩, ha'⟩
  · rintro ⟨before, a, after, rfl, hbefore, ha⟩
    induction before with
    | nil =>
      rw [nil_append, mapM_cons, ha]
      rfl
    | cons b before ih =>
      obtain ⟨⟨result, hb⟩, hbefore⟩ := forall_mem_cons.mp hbefore
      rw [cons_append, mapM_cons, hb, ih hbefore]
      rfl

end List
