import ContainerAudit.Proofs.List
import ContainerAudit.Proofs.Text.Word
import ContainerAudit.Text.Digits
import Mathlib.Data.Nat.Digits.Defs
import Mathlib.Tactic.Ring

/-!
# Words that are numbers

A word is an unsigned number if it consists of digits, with at most a plus sign before them, and its
value is below the bound.  Leading zeros do not change the value, and letters count in either case.

## Key results

- `readNat_eq_ok_iff`: these words are read, with their values, and no others
- `denotes_toDigits`, `Denotes.pad`: the digits that are written for a number
- `IsNumber.isWord`: a number holds no blank
-/

namespace ContainerAudit.Text

variable {base bound : Nat}

/-! ## Digits -/

/-- A character is the digit with a value.  A letter may be in either case. -/
def IsDigit (base : Nat) (c : Char) (d : Nat) : Prop :=
  d < base ∧ (c = Nat.digitChar d ∨ c = (Nat.digitChar d).toUpper)

/-- The code points of the digits, those of the letters in lower case. -/
private theorem toNat_digitChar :
    ∀ d < 16, (Nat.digitChar d).toNat = if d < 10 then 48 + d else 87 + d := by
  decide

/-- The code points of the digits, those of the letters in upper case. -/
private theorem toNat_toUpper_digitChar :
    ∀ d < 16, (Nat.digitChar d).toUpper.toNat = if d < 10 then 48 + d else 55 + d := by
  decide

/-- A character is a digit by its code point. -/
private theorem isDigit_iff (hbase : base ≤ 16) {c : Char} {d : Nat} :
    IsDigit base c d ↔ d < base ∧
      (c.toNat = (if d < 10 then 48 + d else 87 + d) ∨
        c.toNat = (if d < 10 then 48 + d else 55 + d)) := by
  refine and_congr_right fun hd => ?_
  rw [← toNat_digitChar d (by omega), ← toNat_toUpper_digitChar d (by omega), Char.toNat_inj,
    Char.toNat_inj]

/-- The value that is found for a character is that of the digit that it is. -/
private theorem digit?_eq_some_iff (hbase : base ≤ 16) {c : Char} {d : Nat} :
    digit? base c = some d ↔ IsDigit base c d := by
  have hle (a b : Char) : decide (a ≤ b) = decide (a.toNat ≤ b.toNat) := rfl
  rw [isDigit_iff hbase, digit?]
  simp only [hle, Char.reduceToNat, Bool.and_eq_true, decide_eq_true_eq,
    Option.ite_none_right_eq_some, Option.some.injEq]
  -- Only the code point of the character counts.
  generalize c.toNat = n
  split_ifs <;> omega

/-- A digit has one value. -/
theorem IsDigit.unique (hbase : base ≤ 16) {c : Char} {d d' : Nat} (h : IsDigit base c d)
    (h' : IsDigit base c d') : d = d' := by
  rw [← digit?_eq_some_iff hbase] at h h'
  exact Option.some.inj (h.symm.trans h')

/-- No digit is a blank. -/
private theorem IsDigit.isBlank_eq_false (hbase : base ≤ 16) {c : Char} {d : Nat}
    (h : IsDigit base c d) :
    isBlank c = false := by
  obtain ⟨hd, hc⟩ := (isDigit_iff hbase).mp h
  have hrange : 48 ≤ c.toNat ∧ c.toNat ≤ 102 := by split_ifs at hc <;> omega
  unfold isBlank
  generalize c.toNat = n at hrange
  grind

/-! ## Sequences of digits -/

/-- Digits stand for a number, the first one for the most. -/
def Denotes (base : Nat) (digits : List Char) (n : Nat) : Prop :=
  ∃ values, List.Forall₂ (IsDigit base) digits values ∧ Nat.ofDigits base values.reverse = n

private theorem denotes_nil {n : Nat} : Denotes base [] n ↔ n = 0 := by
  simp only [Denotes, List.forall₂_nil_left_iff, exists_eq_left, List.reverse_nil,
    Nat.ofDigits_nil, eq_comm]

/-- The first digit counts as often as the others can be told apart. -/
private theorem denotes_cons {c : Char} {rest : List Char} {n : Nat} :
    Denotes base (c :: rest) n ↔
      ∃ d r, IsDigit base c d ∧ Denotes base rest r ∧ d * base ^ rest.length + r = n := by
  -- The digits before a digit do not change what it stands for.
  have hvalue (d : Nat) {values : List Nat} (h : List.Forall₂ (IsDigit base) rest values) :
      Nat.ofDigits base (d :: values).reverse =
        d * base ^ rest.length + Nat.ofDigits base values.reverse := by
    rw [List.reverse_cons, Nat.ofDigits_append, Nat.ofDigits_singleton, List.length_reverse,
      ← h.length_eq, Nat.mul_comm d, Nat.add_comm]
  constructor
  · rintro ⟨_, h, rfl⟩
    obtain ⟨d, values, hd, hrest, rfl⟩ := List.forall₂_cons_left_iff.mp h
    exact ⟨d, _, hd, ⟨values, hrest, rfl⟩, (hvalue d hrest).symm⟩
  · rintro ⟨d, _, hd, ⟨values, hrest, rfl⟩, rfl⟩
    exact ⟨d :: values, .cons hd hrest, hvalue d hrest⟩

/-- Likewise if the value of the first digit is known. -/
private theorem denotes_cons_of_isDigit (hbase : base ≤ 16) {c : Char} {rest : List Char}
    {n d : Nat}
    (hc : IsDigit base c d) :
    Denotes base (c :: rest) n ↔ ∃ r, Denotes base rest r ∧ d * base ^ rest.length + r = n := by
  rw [denotes_cons]
  constructor
  · rintro ⟨_, r, hd, hr, rfl⟩
    obtain rfl := hc.unique hbase hd
    exact ⟨r, hr, rfl⟩
  · rintro ⟨r, hr, rfl⟩
    exact ⟨d, r, hc, hr, rfl⟩

/-- One digit more at the end. -/
private theorem Denotes.concat {digits : List Char} {n d : Nat} {c : Char}
    (h : Denotes base digits n)
    (hc : IsDigit base c d) : Denotes base (digits ++ [c]) (base * n + d) := by
  obtain ⟨values, hvalues, rfl⟩ := h
  refine ⟨values ++ [d], List.rel_append hvalues (.cons hc .nil), ?_⟩
  rw [List.reverse_concat, Nat.ofDigits_cons]
  simp [Nat.add_comm]

/-- A number is written in its digits. -/
theorem denotes_toDigits (hbase : 1 < base) (n : Nat) : Denotes base (Nat.toDigits base n) n := by
  -- All digits but the last one are those of a smaller number.
  induction n using Nat.strongRecOn with
  | _ n ih =>
    by_cases hn : n < base
    · rw [Nat.toDigits_of_lt_base hn]
      exact denotes_cons.mpr ⟨n, 0, ⟨hn, .inl rfl⟩, denotes_nil.mpr rfl, by simp⟩
    · have hdigit : IsDigit base (Nat.digitChar (n % base)) (n % base) :=
        ⟨Nat.mod_lt _ (by omega), .inl rfl⟩
      have hlt : n / base < n := Nat.div_lt_self (by omega) hbase
      have h := (ih _ hlt).concat hdigit
      rwa [← Nat.toDigits_of_base_le hbase (by omega), Nat.div_add_mod] at h

/-- Zeros before the digits do not count. -/
theorem Denotes.pad (hbase : 0 < base) {digits : List Char} {n : Nat} (h : Denotes base digits n)
    (length : Nat) : Denotes base (digits.leftpad length '0') n := by
  unfold List.leftpad
  induction length - digits.length with
  | zero => exact h
  | succ k ih =>
    rw [List.replicate_succ, List.cons_append]
    exact denotes_cons.mpr ⟨0, n, ⟨hbase, .inl rfl⟩, ih, by simp⟩

/-! ## Numbers -/

/-- A word is an unsigned number below a bound. -/
inductive IsNumber (base bound : Nat) : List Char → Nat → Prop where
  | plain {digits : List Char} {n : Nat} (hne : digits ≠ []) (h : Denotes base digits n)
    (hlt : n < bound) : IsNumber base bound digits n
  /-- There may be a plus sign before the digits. -/
  | signed {digits : List Char} {n : Nat} (hne : digits ≠ []) (h : Denotes base digits n)
    (hlt : n < bound) : IsNumber base bound ('+' :: digits) n

/-- The digits that are written for a number below the bound are a number. -/
theorem isNumber_toDigits (hbase : 1 < base) {n : Nat} (hlt : n < bound) :
    IsNumber base bound (Nat.toDigits base n) n :=
  .plain Nat.toDigits_ne_nil (denotes_toDigits hbase n) hlt

theorem IsNumber.lt {word : List Char} {n : Nat} (h : IsNumber base bound word n) : n < bound := by
  cases h <;> assumption

/-- A number holds no blank. -/
theorem IsNumber.isWord (hbase : base ≤ 16) {word : List Char} {n : Nat}
    (h : IsNumber base bound word n) : IsWord word := by
  have hdigits {digits : List Char} {n : Nat} (h : Denotes base digits n) :
      ∀ c ∈ digits, isBlank c = false := by
    obtain ⟨values, hvalues, -⟩ := h
    exact List.forall_mem_of_forall₂ hvalues fun c d hc => hc.isBlank_eq_false hbase
  cases h with
  | plain hne h hlt => exact ⟨hne, hdigits h⟩
  | signed hne h hlt =>
    have hplus : isBlank '+' = false := by decide
    exact ⟨List.cons_ne_nil _ _, List.forall_mem_cons.mpr ⟨hplus, hdigits h⟩⟩

/-- Reading on from a value, the digits are taken to follow those of the value. -/
private theorem readDigits_eq_ok_iff (hbase : base ≤ 16) {digits : List Char} {n m : Nat}
    (hn : n < bound) :
    readDigits base bound n digits = .ok m ↔
      ∃ r, Denotes base digits r ∧ n * base ^ digits.length + r = m ∧ m < bound := by
  induction digits generalizing n with
  | nil =>
    simp only [readDigits, Except.ok.injEq, denotes_nil, exists_eq_left, List.length_nil, pow_zero,
      Nat.mul_one, Nat.add_zero]
    exact ⟨fun h => ⟨h, h ▸ hn⟩, And.left⟩
  | cons c rest ih =>
    rw [readDigits]
    cases hc : digit? base c with
    | none =>
      have hnone : ∀ d, ¬IsDigit base c d := fun d hd => by
        rw [(digit?_eq_some_iff hbase).mpr hd] at hc
        cases hc
      simp [denotes_cons, hnone]
    | some d =>
      -- With one digit more the value moves up by one place, and so do the digits behind it.
      have hd := (digit?_eq_some_iff hbase).mp hc
      have hshift (r : Nat) : n * base ^ (c :: rest).length + (d * base ^ rest.length + r) =
          (n * base + d) * base ^ rest.length + r := by
        rw [List.length_cons]
        ring
      have hcons : (∃ r, Denotes base (c :: rest) r ∧
            n * base ^ (c :: rest).length + r = m ∧ m < bound) ↔
          ∃ r, Denotes base rest r ∧ (n * base + d) * base ^ rest.length + r = m ∧ m < bound := by
        simp only [denotes_cons_of_isDigit hbase hd, ← hshift]
        constructor
        · rintro ⟨_, ⟨r, hr, rfl⟩, hm⟩
          exact ⟨r, hr, hm⟩
        · rintro ⟨r, hr, hm⟩
          exact ⟨_, ⟨r, hr, rfl⟩, hm⟩
      rw [hcons]
      show (if n * base + d < bound then readDigits base bound (n * base + d) rest
        else .error .tooLarge) = .ok m ↔ _
      split
      · exact ih ‹_›
      · -- The value only grows with the digits that follow.
        have hpow : 0 < base ^ rest.length := Nat.pow_pos (Nat.zero_lt_of_lt hd.1)
        have hle := Nat.le_mul_of_pos_right (n * base + d) hpow
        refine ⟨nofun, ?_⟩
        rintro ⟨r, -, hm, hlt⟩
        omega

/-- A word is read as a number exactly if it is one. -/
theorem readNat_eq_ok_iff (hbase : base ≤ 16) (hbound : 0 < bound) {word : List Char} {n : Nat} :
    readNat base bound word = .ok n ↔ IsNumber base bound word n := by
  have hdigits (digits : List Char) :
      readDigits base bound 0 digits = .ok n ↔ Denotes base digits n ∧ n < bound := by
    simp [readDigits_eq_ok_iff hbase hbound]
  -- The sign is no digit.
  have hplus (rest : List Char) (n : Nat) : ¬Denotes base ('+' :: rest) n := by
    rw [denotes_cons]
    rintro ⟨d, r, hd, -⟩
    obtain ⟨-, h⟩ := (isDigit_iff hbase).mp hd
    split_ifs at h <;> simp at h <;> omega
  -- No digits at all, a sign on its own, a sign with digits behind it, and digits.
  unfold readNat
  split
  · refine ⟨nofun, ?_⟩
    rintro (⟨hne, -, -⟩)
    exact absurd rfl hne
  · refine ⟨nofun, ?_⟩
    rintro (⟨-, h, -⟩ | ⟨hne, -, -⟩)
    · exact absurd h (hplus _ _)
    · exact absurd rfl hne
  · rename_i digits hne
    rw [hdigits]
    constructor
    · rintro ⟨h, hlt⟩
      exact .signed (fun heq => hne (by rw [heq])) h hlt
    · rintro (⟨-, h, -⟩ | ⟨-, h, hlt⟩)
      · exact absurd h (hplus _ _)
      · exact ⟨h, hlt⟩
  · rename_i digits hne _ hsign
    rw [hdigits]
    constructor
    · rintro ⟨h, hlt⟩
      exact .plain hne h hlt
    · rintro (⟨-, h, hlt⟩ | ⟨-, h, hlt⟩)
      · exact ⟨h, hlt⟩
      · exact absurd rfl (hsign _)

end ContainerAudit.Text
