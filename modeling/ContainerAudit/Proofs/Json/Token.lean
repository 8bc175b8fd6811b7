import ContainerAudit.Proofs.Json.StringLiteral

/-!
# Spelled tokens

A JSON text is a sequence of tokens with white space between them as anyone likes.  `Spelled` says
so, with a spelling for each kind of token, and the scanner finds exactly the tokens that were
spelled.

## Key results

- `tokensFrom_lexeme`: one spelled token is read as that token
- `spelled_iff`: the bytes spell tokens exactly if the scanner finds them without a fault
-/

namespace ContainerAudit.Json

open Text (Bytes)

/-! ## The grammar of tokens -/

/-- White space between tokens. -/
def isSpace (b : UInt8) : Bool := b == 0x20 || b == 0x09 || b == 0x0A || b == 0x0D

/-- The bytes are a spelling of the token. -/
inductive IsLexeme : Token → Bytes → Prop where
  | openArray : IsLexeme .openArray [0x5B]
  | closeArray : IsLexeme .closeArray [0x5D]
  | openObject : IsLexeme .openObject [0x7B]
  | closeObject : IsLexeme .closeObject [0x7D]
  | comma : IsLexeme .comma [0x2C]
  | colon : IsLexeme .colon [0x3A]
  | nullName : IsLexeme .null [0x6E, 0x75, 0x6C, 0x6C]
  | trueName : IsLexeme (.boolean true) [0x74, 0x72, 0x75, 0x65]
  | falseName : IsLexeme (.boolean false) [0x66, 0x61, 0x6C, 0x73, 0x65]
  | number {n : Numeral} {bytes : Bytes} (h : n.IsWritten bytes) : IsLexeme (.number n) bytes
  | text {body : Bytes} {c : Content} (h : IsBody .empty body c) :
    IsLexeme (.text c.text) (0x22 :: body ++ [0x22])

/-- A number ends where no byte follows that would continue it. -/
def Token.EndsBefore (t : Token) (rest : Bytes) : Prop :=
  ∀ n, t = .number n → ∀ b ∈ rest.head?, continuesNumber b = false

/-- Whether a token is a number. -/
def Token.isNumber : Token → Bool
  | .number _ => true
  | _ => false

/-- Any token but a number ends by itself. -/
theorem Token.endsBefore {t : Token} (h : t.isNumber = false) (rest : Bytes) :
    t.EndsBefore rest := by
  rintro n rfl
  cases h

/-- The bytes spell the tokens, with white space before, between and after them. -/
inductive Spelled : List Token → Bytes → Prop where
  | nil : Spelled [] []
  | space {ts : List Token} {b : UInt8} {rest : Bytes} (hb : isSpace b = true)
    (h : Spelled ts rest) : Spelled ts (b :: rest)
  | cons {t : Token} {ts : List Token} {lexeme rest : Bytes} (ht : IsLexeme t lexeme)
    (hend : t.EndsBefore rest) (h : Spelled ts rest) : Spelled (t :: ts) (lexeme ++ rest)

/-- What is spelled before something that continues no number can stand before it. -/
theorem Spelled.append {ts₁ ts₂ : List Token} {bytes₁ bytes₂ : Bytes} (h₁ : Spelled ts₁ bytes₁)
    (h₂ : Spelled ts₂ bytes₂) (hnext : ∀ b ∈ bytes₂.head?, continuesNumber b = false) :
    Spelled (ts₁ ++ ts₂) (bytes₁ ++ bytes₂) := by
  induction h₁ with
  | nil => exact h₂
  | space hb _ ih => exact .space hb ih
  | cons ht hend _ ih =>
    rename_i lexeme rest _
    rw [List.append_assoc]
    refine .cons ht (fun n hn b hb => ?_) ih
    -- Behind the last token of the first part stands the first byte of the second one.
    cases rest with
    | nil => exact hnext b hb
    | cons first rest => exact hend n hn b hb

/-! ## What is spelled is read -/

/-- White space begins no token. -/
private theorem begin_of_isSpace {b : UInt8} (h : isSpace b = true) : begin b = ([], .between) := by
  unfold begin
  exact if_pos h

/-- A spelled token is read before anything that follows it. -/
theorem tokensFrom_lexeme {t : Token} {lexeme rest : Bytes} (h : IsLexeme t lexeme)
    (hend : t.EndsBefore rest) :
    tokensFrom .between (lexeme ++ rest) = t :: tokensFrom .between rest := by
  cases h with
  | number h => exact tokensFrom_written h (hend _ rfl)
  | text h =>
    have hopen (after : Bytes) :
        tokensFrom .between (0x22 :: after) = tokensFrom (.string .empty) after := rfl
    rw [List.cons_append, List.cons_append, List.append_assoc, hopen]
    exact tokensFrom_body h rest
  -- Every other token is spelled with fixed bytes, which the scanner takes one by one.
  | _ => rfl

/-- No fault is spelled. -/
private theorem IsLexeme.isFault_eq_false {t : Token} {lexeme : Bytes} (h : IsLexeme t lexeme) :
    t.isFault = false := by
  cases h <;> rfl

/-- The tokens that are spelled are read, and none of them is a fault. -/
theorem Spelled.tokens_eq {ts : List Token} {bytes : Bytes} (h : Spelled ts bytes) :
    tokens bytes = ts ∧ ∀ t ∈ ts, t.isFault = false := by
  unfold tokens
  -- White space gives no token, and a lexeme is taken whole because nothing continues it.
  induction h with
  | nil => exact ⟨rfl, by simp⟩
  | space hb _ ih =>
    refine ⟨?_, ih.2⟩
    rw [tokensFrom_cons, step, begin_of_isSpace hb]
    exact ih.1
  | cons ht hend _ ih =>
    refine ⟨?_, List.forall_mem_cons.mpr ⟨ht.isFault_eq_false, ih.2⟩⟩
    rw [tokensFrom_lexeme ht hend, ih.1]

/-! ## What is read was spelled -/

/-- What a byte between tokens can begin, with the outcome. -/
inductive BeginStep : UInt8 → List Token × Scan → Prop where
  | space {b : UInt8} (h : isSpace b = true) : BeginStep b ([], .between)
  /-- A token of one byte. -/
  | single {b : UInt8} {t : Token} (h : IsLexeme t [b]) (ht : t.isNumber = false) :
    BeginStep b ([t], .between)
  | string : BeginStep 0x22 ([], .string .empty)
  | number {b : UInt8} {place : NumberPlace} {n : Numeral} (h : n.Reaches place [b]) :
    BeginStep b ([], .number place n)
  /-- The first letter of a name. -/
  | literal {b : UInt8} {letters : Bytes} {t : Token} (h : IsLexeme t (b :: letters))
    (ht : t.isNumber = false) (hne : letters ≠ []) : BeginStep b ([], .literal letters t)
  | stray {b : UInt8} : BeginStep b ([.stray], .stopped)

/-- There is nothing else that a byte can begin. -/
private theorem beginStep_begin (b : UInt8) : BeginStep b (begin b) := by
  -- The cases are those that `begin` tells apart.
  by_cases hspace : isSpace b = true
  · rw [begin_of_isSpace hspace]
    exact .space hspace
  by_cases hsingle : b = 0x5B ∨ b = 0x5D ∨ b = 0x7B ∨ b = 0x7D ∨ b = 0x2C ∨ b = 0x3A
  · rcases hsingle with rfl | rfl | rfl | rfl | rfl | rfl
    · exact .single .openArray rfl
    · exact .single .closeArray rfl
    · exact .single .openObject rfl
    · exact .single .closeObject rfl
    · exact .single .comma rfl
    · exact .single .colon rfl
  by_cases hname : b = 0x6E ∨ b = 0x74 ∨ b = 0x66
  · rcases hname with rfl | rfl | rfl
    · exact .literal .nullName rfl (by simp)
    · exact .literal .trueName rfl (by simp)
    · exact .literal .falseName rfl (by simp)
  by_cases hquote : b = 0x22
  · subst hquote
    exact .string
  by_cases hminus : b = 0x2D
  · subst hminus
    have hsign : (⟨true, [], none, none⟩ : Numeral).Reaches .sign [0x2D] := ⟨rfl, rfl⟩
    exact .number hsign
  cases hdigit : digit? b with
  | some d =>
    obtain ⟨hd, rfl⟩ := digit?_eq_some hdigit
    rw [begin_digitByte hd]
    exact .number (Numeral.reaches_firstDigit false hd)
  | none =>
    -- `begin` tests a zero and the other digits apart, and here it is neither.
    have hzero : b ≠ 0x30 := by
      rintro rfl
      cases hdigit
    have hrange : (0x31 ≤ b && b ≤ 0x39) = false := by
      refine Bool.eq_false_iff.mpr fun hin => ?_
      have hin' : (0x30 ≤ b && b ≤ 0x39) = true := by
        simp only [Bool.and_eq_true, decide_eq_true_eq] at hin ⊢
        exact ⟨UInt8.le_trans (by decide) hin.1, hin.2⟩
      simp [digit?, hin'] at hdigit
    have hstray : begin b = ([.stray], .stopped) := by
      simp only [not_or] at hsingle hname
      obtain ⟨h5B, h5D, h7B, h7D, h2C, h3A⟩ := hsingle
      obtain ⟨h6E, h74, h66⟩ := hname
      simp only [begin, isSpace, beq_iff_eq] at hspace ⊢
      simp only [hspace, h5B, h5D, h7B, h7D, h2C, h3A, h6E, h74, h66, hquote, hminus, hzero, hrange,
        if_false, Bool.false_eq_true]
    rw [hstray]
    exact .stray

/-- What is read as a name without a fault is that name. -/
private theorem exists_of_tokensFrom_literal {letters bytes : Bytes} {t : Token}
    (hne : letters ≠ [])
    (hsound : ∀ u ∈ tokensFrom (.literal letters t) bytes, u.isFault = false) :
    ∃ rest, bytes = letters ++ rest ∧
      tokensFrom (.literal letters t) bytes = t :: tokensFrom .between rest := by
  -- Any byte but the next letter leaves a fault, and so does the end.
  induction letters generalizing bytes with
  | nil => exact absurd rfl hne
  | cons letter letters ih =>
    cases bytes with
    | nil =>
      have := hsound (.brokenScalar (.same .truncated)) List.mem_cons_self
      cases this
    | cons b bytes =>
      by_cases hb : b = letter
      · subst hb
        cases letters with
        | nil => exact ⟨bytes, rfl, by simp [tokensFrom_cons, step]⟩
        | cons next letters =>
          have hstep : step (.literal (b :: next :: letters) t) b =
              ([], .literal (next :: letters) t) := by simp [step]
          rw [tokensFrom_cons, hstep, List.nil_append] at hsound ⊢
          obtain ⟨rest, rfl, htokens⟩ := ih (List.cons_ne_nil _ _) hsound
          exact ⟨rest, rfl, htokens⟩
      · have hstep : step (.literal (letter :: letters) t) b =
            ([.brokenScalar (.same .malformed)], .stopped) := by simp [step, hb]
        rw [tokensFrom_cons, hstep] at hsound
        have := hsound (.brokenScalar (.same .malformed)) List.mem_cons_self
        cases this

/-- Where no fault is read, the next byte is white space or the next token is spelled there. -/
private theorem exists_lexeme_of_tokensFrom {b : UInt8} {bytes : Bytes}
    (hsound : ∀ t ∈ tokensFrom .between (b :: bytes), t.isFault = false) :
    isSpace b = true ∨ ∃ t more rest, bytes = more ++ rest ∧ IsLexeme t (b :: more) ∧
      t.EndsBefore rest ∧
      tokensFrom .between (b :: bytes) = t :: tokensFrom .between rest := by
  have hcases := beginStep_begin b
  have hstep : step .between b = begin b := rfl
  rw [tokensFrom_cons, hstep] at hsound ⊢
  generalize begin b = result at hcases hsound ⊢
  cases hcases with
  | space hb => exact .inl hb
  | single h ht => exact .inr ⟨_, [], bytes, rfl, h, Token.endsBefore ht _, rfl⟩
  | string =>
    obtain ⟨body, rest, c, rfl, hbody, htokens⟩ := exists_body_of_tokensFrom hsound
    have hlexeme := IsLexeme.text hbody
    rw [List.cons_append] at hlexeme
    exact .inr ⟨_, _, rest, by simp, hlexeme, Token.endsBefore rfl _, htokens⟩
  | number h =>
    obtain ⟨more, rest, n, rfl, hwritten, hend, htokens⟩ := exists_written_of_tokensFrom h hsound
    refine .inr ⟨_, more, rest, rfl, .number hwritten, ?_, htokens⟩
    intro n' hn'
    cases hn'
    exact hend
  | literal h ht hne =>
    obtain ⟨rest, rfl, htokens⟩ := exists_of_tokensFrom_literal hne hsound
    exact .inr ⟨_, _, rest, rfl, h, Token.endsBefore ht _, htokens⟩
  | stray =>
    have := hsound .stray List.mem_cons_self
    cases this

/-- What is read without a fault was spelled. -/
private theorem spelled_of_tokensFrom {bytes : Bytes}
    (hsound : ∀ t ∈ tokensFrom .between bytes, t.isFault = false) :
    Spelled (tokensFrom .between bytes) bytes := by
  -- A token takes several bytes at once, so the induction is on the length.
  induction hlength : bytes.length using Nat.strong_induction_on generalizing bytes with
  | _ length ih =>
    subst hlength
    cases bytes with
    | nil => exact .nil
    | cons b bytes =>
      rcases exists_lexeme_of_tokensFrom hsound with
        hspace | ⟨t, more, rest, rfl, hlexeme, hend, htokens⟩
      · have hskip : tokensFrom .between (b :: bytes) = tokensFrom .between bytes := by
          rw [tokensFrom_cons, step, begin_of_isSpace hspace, List.nil_append]
        rw [hskip] at hsound ⊢
        exact .space hspace (ih _ (by simp) hsound rfl)
      · rw [htokens] at hsound ⊢
        have hrest := (List.forall_mem_cons.mp hsound).2
        have hshorter : rest.length < (b :: (more ++ rest)).length := by
          simp only [List.length_append, List.length_cons]
          omega
        exact .cons hlexeme hend (ih _ hshorter hrest rfl)

/-- The bytes spell tokens exactly if these are the tokens that are read, and none is a fault. -/
theorem spelled_iff {ts : List Token} {bytes : Bytes} :
    Spelled ts bytes ↔ tokens bytes = ts ∧ ∀ t ∈ ts, t.isFault = false := by
  constructor
  · exact Spelled.tokens_eq
  · rintro ⟨rfl, hsound⟩
    exact spelled_of_tokensFrom hsound

end ContainerAudit.Json
