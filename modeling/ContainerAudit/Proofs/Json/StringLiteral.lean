import ContainerAudit.Proofs.Json.Numeral

/-!
# Written strings

Between the quotation marks of a string stand bytes for themselves, escapes with one letter and
escapes with four hexadecimal digits.  `IsBody` is that grammar; it says of each part what it adds
to the content of the string.

## Key results

- `tokensFrom_body`: a string is read as what its parts add up to
- `exists_body_of_tokensFrom`: what is read as a string has such parts
-/

namespace ContainerAudit.Json

open Text (Bytes)

/-- What may stand between the quotation marks of a string, with the content before and after it. -/
inductive IsBody : Content → Bytes → Content → Prop where
  | nil (c : Content) : IsBody c [] c
  /-- A byte that stands for itself. -/
  | plain {c c' : Content} {b : UInt8} {rest : Bytes} (hcontrol : 0x20 ≤ b) (hquote : b ≠ 0x22)
    (hescape : b ≠ 0x5C) (h : IsBody (c.push [b]) rest c') : IsBody c (b :: rest) c'
  /-- A backslash and a letter. -/
  | escape {c c' : Content} {letter byte : UInt8} {rest : Bytes}
    (hletter : escaped? letter = some byte) (h : IsBody (c.push [byte]) rest c') :
    IsBody c (0x5C :: letter :: rest) c'
  /-- A backslash, a `u` and four hexadecimal digits. -/
  | unit {c c' : Content} {d₁ d₂ d₃ d₄ : UInt8} {unit : Nat} {rest : Bytes}
    (hunit : hexValue? [d₁, d₂, d₃, d₄] = some unit) (h : IsBody (c.pushUnit unit) rest c') :
    IsBody c (0x5C :: 0x75 :: d₁ :: d₂ :: d₃ :: d₄ :: rest) c'

/-! ## The parts of a string -/

/-- A byte that stands for itself is added to the content. -/
private theorem tokensFrom_plain {b : UInt8} (hcontrol : 0x20 ≤ b) (hquote : b ≠ 0x22)
    (hescape : b ≠ 0x5C) (c : Content) (rest : Bytes) :
    tokensFrom (.string c) (b :: rest) = tokensFrom (.string (c.push [b])) rest := by
  have hstep : step (.string c) b = ([], .string (c.push [b])) := by
    simp [step, hquote, hescape, UInt8.not_lt.mpr hcontrol]
  rw [tokensFrom_cons, hstep, List.nil_append]

/-- An escape with a letter adds the byte that the letter stands for. -/
private theorem tokensFrom_escape {letter byte : UInt8} (hletter : escaped? letter = some byte)
    (c : Content) (rest : Bytes) :
    tokensFrom (.string c) (0x5C :: letter :: rest) =
      tokensFrom (.string (c.push [byte])) rest := by
  -- The letter `u` announces four digits and stands for no byte.
  have hne : letter ≠ 0x75 := by
    rintro rfl
    have hnone : escaped? 0x75 = none := by decide
    rw [hnone] at hletter
    cases hletter
  have hstep : step (.escape c) letter = ([], .string (c.push [byte])) := by
    simp [step, hne, hletter]
  have hopen : step (.string c) 0x5C = ([], .escape c) := rfl
  rw [tokensFrom_cons, hopen, List.nil_append, tokensFrom_cons, hstep, List.nil_append]

/-- An escape with four digits adds the unit that they make up, or is a fault. -/
private theorem tokensFrom_unit (d₁ d₂ d₃ d₄ : UInt8) (c : Content) (rest : Bytes) :
    tokensFrom (.string c) (0x5C :: 0x75 :: d₁ :: d₂ :: d₃ :: d₄ :: rest) =
      match hexValue? [d₁, d₂, d₃, d₄] with
      | some unit => tokensFrom (.string (c.pushUnit unit)) rest
      | none => .brokenText (.same .malformed) :: tokensFrom .stopped rest := by
  have hopen : tokensFrom (.string c) (0x5C :: 0x75 :: d₁ :: d₂ :: d₃ :: d₄ :: rest) =
      tokensFrom (.unit c [d₁, d₂, d₃]) (d₄ :: rest) := rfl
  rw [hopen, tokensFrom_cons]
  simp only [step, List.cons_append, List.nil_append, List.length_cons, List.length_nil]
  cases hexValue? [d₁, d₂, d₃, d₄] <;> rfl

/-- A string is read as the content that its parts add up to. -/
theorem tokensFrom_body {c c' : Content} {body : Bytes} (h : IsBody c body c') (rest : Bytes) :
    tokensFrom (.string c) (body ++ 0x22 :: rest) = .text c'.text :: tokensFrom .between rest := by
  induction h with
  | nil c => rfl
  | plain hcontrol hquote hescape _ ih =>
    rw [List.cons_append, tokensFrom_plain hcontrol hquote hescape, ih]
  | escape hletter _ ih =>
    rw [List.cons_append, List.cons_append, tokensFrom_escape hletter, ih]
  | unit hunit _ ih =>
    simp only [List.cons_append]
    rw [tokensFrom_unit, hunit]
    exact ih

/-! ## What is read as a string -/

/-- What is read as a string without a fault has parts, and a quotation mark after them. -/
theorem exists_body_of_tokensFrom {c : Content} {bytes : Bytes}
    (hsound : ∀ t ∈ tokensFrom (.string c) bytes, t.isFault = false) :
    ∃ body rest c', bytes = body ++ 0x22 :: rest ∧ IsBody c body c' ∧
      tokensFrom (.string c) bytes = .text c'.text :: tokensFrom .between rest := by
  -- An escape takes several bytes at once, so the induction is on the length.
  induction hlength : bytes.length using Nat.strong_induction_on generalizing bytes c with
  | _ length ih =>
    subst hlength
    -- Where the string breaks off, there is a fault.
    have hcut {fault : Break} {tokens : List Token} {P : Prop}
        (h : ∀ t ∈ Token.brokenText fault :: tokens, t.isFault = false) : P := by
      have := h (.brokenText fault) List.mem_cons_self
      cases this
    match bytes with
    | [] => exact hcut hsound
    | b :: rest =>
      by_cases hquote : b = 0x22
      · subst hquote
        exact ⟨[], rest, c, rfl, .nil c, rfl⟩
      by_cases hescape : b = 0x5C
      · subst hescape
        match rest with
        | [] => exact hcut hsound
        | letter :: rest =>
          by_cases hunit : letter = 0x75
          · subst hunit
            match rest with
            -- The text ends before the four digits are complete.
            | [] | [_] | [_, _] | [_, _, _] => exact hcut hsound
            | d₁ :: d₂ :: d₃ :: d₄ :: rest =>
              rw [tokensFrom_unit] at hsound ⊢
              cases hvalue : hexValue? [d₁, d₂, d₃, d₄] with
              | none =>
                rw [hvalue] at hsound
                exact hcut hsound
              | some unit =>
                rw [hvalue] at hsound
                have hshorter :
                    rest.length < (0x5C :: 0x75 :: d₁ :: d₂ :: d₃ :: d₄ :: rest).length := by
                  simp only [List.length_cons]
                  omega
                obtain ⟨body, after, c', rfl, hbody, htokens⟩ := ih _ hshorter hsound rfl
                exact ⟨_, after, c', rfl, .unit hvalue hbody, htokens⟩
          · -- Any other letter is an escape of its own or none at all.
            cases hletter : escaped? letter with
            | none =>
              have hstep : step (.escape c) letter =
                  ([.brokenText (.same .malformed)], .stopped) := by
                simp [step, hunit, hletter]
              have hopen : tokensFrom (.string c) (0x5C :: letter :: rest) =
                  tokensFrom (.escape c) (letter :: rest) := rfl
              rw [hopen, tokensFrom_cons, hstep] at hsound
              exact hcut hsound
            | some byte =>
              rw [tokensFrom_escape hletter] at hsound ⊢
              have hshorter : rest.length < (0x5C :: letter :: rest).length := by
                simp only [List.length_cons]
                omega
              obtain ⟨body, after, c', rfl, hbody, htokens⟩ := ih _ hshorter hsound rfl
              exact ⟨_, after, c', rfl, .escape hletter hbody, htokens⟩
      · -- A control character may not stand for itself.
        by_cases hcontrol : b < 0x20
        · have hstep : step (.string c) b = ([.brokenText (.same .malformed)], .stopped) := by
            simp [step, hquote, hescape, hcontrol]
          rw [tokensFrom_cons, hstep] at hsound
          exact hcut hsound
        · have hplain := UInt8.not_lt.mp hcontrol
          rw [tokensFrom_plain hplain hquote hescape] at hsound ⊢
          obtain ⟨body, after, c', rfl, hbody, htokens⟩ := ih _ (by simp) hsound rfl
          exact ⟨_, after, c', rfl, .plain hplain hquote hescape hbody, htokens⟩

end ContainerAudit.Json
