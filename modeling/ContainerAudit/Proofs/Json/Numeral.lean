import ContainerAudit.Json.Token
import Mathlib.Tactic.IntervalCases

/-!
# Written numbers

A number is an optional minus sign, digits without a zero in front unless it stands alone, optional
decimal places and an optional exponent.  A `Numeral` keeps all of these but for the letter of the
exponent and a plus sign, which `Numeral.IsWritten` leaves open.

The scanner has a place for each part of a number.  What it has read when it comes to a place is
described by `Numeral.Reaches`, and every byte that it takes in keeps that description.

## Key results

- `tokensFrom_written`: a written number is read as what it was written for
- `exists_written_of_tokensFrom`: what is read as a number was written for it
-/

namespace ContainerAudit.Json

open Text (Bytes)

/-! ## The grammar of numbers -/

/-- The byte of a digit. -/
def digitByte (d : Nat) : UInt8 := UInt8.ofNat (0x30 + d)

namespace Numeral

/-- The sign and the whole digits. -/
def writtenWhole (n : Numeral) : Bytes :=
  (if n.negative then [0x2D] else []) ++ n.whole.reverse.map digitByte

/-- The decimal places. -/
def writtenFraction (n : Numeral) : Bytes :=
  match n.fraction with
  | none => []
  | some digits => 0x2E :: digits.reverse.map digitByte

/-- The exponent, with its letter and its sign as they are to be written. -/
def writtenExponent (n : Numeral) (letter : UInt8) (plus : Bool) : Bytes :=
  match n.exponent with
  | none => []
  | some (minus, digits) =>
    letter :: (if minus then [0x2D] else if plus then [0x2B] else []) ++
      digits.reverse.map digitByte

/-- The parts of a number that can be written. -/
structure IsWellFormed (n : Numeral) : Prop where
  whole_ne_nil : n.whole ≠ []
  whole_lt : ∀ d ∈ n.whole, d < 10
  /-- A zero in front stands alone. -/
  leading : n.whole.getLast? = some 0 → n.whole = [0]
  fraction : ∀ digits, n.fraction = some digits → digits ≠ [] ∧ ∀ d ∈ digits, d < 10
  exponent : ∀ minus digits, n.exponent = some (minus, digits) →
    digits ≠ [] ∧ ∀ d ∈ digits, d < 10

/-- The letters that begin an exponent. -/
def IsMark (letter : UInt8) : Prop := letter = 0x65 ∨ letter = 0x45

/-- The bytes are a way to write the number. -/
def IsWritten (n : Numeral) (bytes : Bytes) : Prop :=
  n.IsWellFormed ∧ ∃ letter plus, IsMark letter ∧
    bytes = n.writtenWhole ++ n.writtenFraction ++ n.writtenExponent letter plus

end Numeral

/-- Whether a byte would continue a number that could end before it. -/
def continuesNumber (b : UInt8) : Bool :=
  (digit? b).isSome || b == 0x2E || b == 0x65 || b == 0x45

/-! ## Digits -/

/-- The byte of a digit is read as that digit. -/
private theorem digit?_digitByte {d : Nat} (h : d < 10) : digit? (digitByte d) = some d := by
  have hall : ∀ d < 10, digit? (digitByte d) = some d := by decide
  exact hall d h

/-- What is read as a digit is its byte. -/
theorem digit?_eq_some {b : UInt8} {d : Nat} (h : digit? b = some d) :
    d < 10 ∧ b = digitByte d := by
  unfold digit? at h
  split at h
  · rename_i hrange
    simp only [Bool.and_eq_true, decide_eq_true_eq] at hrange
    obtain ⟨hlow, hhigh⟩ := hrange
    -- A byte in the range is that of zero and as many as the digit counts.
    have hlow' : 0x30 ≤ b.toNat := hlow
    have hhigh' : b.toNat ≤ 0x39 := hhigh
    obtain rfl := Option.some.inj h
    refine ⟨by omega, ?_⟩
    rw [digitByte, Nat.add_sub_cancel' hlow', UInt8.ofNat_toNat]
  · cases h

/-! ## Reading what was written -/

/-- Scanning goes on byte by byte. -/
theorem tokensFrom_cons (scan : Scan) (b : UInt8) (rest : Bytes) :
    tokensFrom scan (b :: rest) = (step scan b).1 ++ tokensFrom (step scan b).2 rest := rfl

/-- A digit is added to the number, and leads to the next place. -/
private theorem tokensFrom_digit {place next : NumberPlace} {n : Numeral} {d : Nat} (hd : d < 10)
    (hnext : place.afterDigit d = some next) (rest : Bytes) :
    tokensFrom (.number place n) (digitByte d :: rest) =
      tokensFrom (.number next (n.push place d)) rest := by
  have hstep : step (.number place n) (digitByte d) = ([], .number next (n.push place d)) := by
    simp only [step, stepNumber, digit?_digitByte hd, hnext]
  rw [tokensFrom_cons, hstep, List.nil_append]

/-- A run of digits at a place that they do not leave. -/
private theorem tokensFrom_digits {place : NumberPlace}
    (hstay : ∀ d, place.afterDigit d = some place) {digits : List Nat}
    (hlt : ∀ d ∈ digits, d < 10) (n : Numeral) (rest : Bytes) :
    tokensFrom (.number place n) (digits.map digitByte ++ rest) =
      tokensFrom (.number place (digits.foldl (·.push place) n)) rest := by
  induction digits generalizing n with
  | nil => rfl
  | cons d digits ih =>
    have hrest := ih fun d' hd' => hlt d' (List.mem_cons_of_mem _ hd')
    rw [List.map_cons, List.cons_append, tokensFrom_digit (hlt d List.mem_cons_self) (hstay d),
      hrest, List.foldl_cons]

/-- A run of digits that begins a part of a number. -/
private theorem tokensFrom_part (place next : NumberPlace)
    (hfirst : ∀ d, place.afterDigit d = some next)
    (hstay : ∀ d, next.afterDigit d = some next) {n : Numeral}
    (hpush : ∀ d, n.push place d = n.push next d) {digits : List Nat} (hne : digits ≠ [])
    (hlt : ∀ d ∈ digits, d < 10) (rest : Bytes) :
    tokensFrom (.number place n) (digits.map digitByte ++ rest) =
      tokensFrom (.number next (digits.foldl (·.push next) n)) rest := by
  obtain ⟨first, more, rfl⟩ := List.exists_cons_of_ne_nil hne
  have hmore : ∀ d ∈ more, d < 10 := fun d hd => hlt d (List.mem_cons_of_mem _ hd)
  rw [List.map_cons, List.cons_append,
    tokensFrom_digit (hlt first List.mem_cons_self) (hfirst first), hpush,
    tokensFrom_digits hstay hmore, List.foldl_cons]

/-- Digits in front of the point are kept with the last one first. -/
private theorem foldl_push_whole (digits : List Nat) (n : Numeral) :
    digits.foldl (·.push .whole) n = { n with whole := digits.reverse ++ n.whole } := by
  induction digits generalizing n with
  | nil => rfl
  | cons d digits ih =>
    rw [List.foldl_cons, ih]
    simp [Numeral.push]

/-- So are digits behind the point, of which there is at least one. -/
private theorem foldl_push_fraction {digits : List Nat} (hne : digits ≠ []) (n : Numeral) :
    digits.foldl (·.push .fraction) n =
      { n with fraction := some (digits.reverse ++ n.fraction.getD []) } := by
  induction digits generalizing n with
  | nil => exact absurd rfl hne
  | cons d digits ih =>
    rw [List.foldl_cons]
    by_cases hmore : digits = []
    · simp [hmore, Numeral.push]
    · simp [ih hmore, Numeral.push]

/-- So are those of an exponent, behind its sign if it has one. -/
private theorem foldl_push_exponent {digits : List Nat} (hne : digits ≠ []) (n : Numeral) :
    digits.foldl (·.push .exponent) n =
      { n with exponent := some ((n.exponent.getD (false, [])).1,
        digits.reverse ++ (n.exponent.getD (false, [])).2) } := by
  induction digits generalizing n with
  | nil => exact absurd rfl hne
  | cons d digits ih =>
    rw [List.foldl_cons]
    by_cases hmore : digits = []
    · simp [hmore, Numeral.push]
    · simp [ih hmore, Numeral.push]

/-- The place after the whole digits. -/
def wholePlace (whole : List Nat) : NumberPlace := if whole = [0] then .zero else .whole

/-- A number may end after its whole digits. -/
private theorem isEnd_wholePlace (whole : List Nat) : (wholePlace whole).isEnd = true := by
  unfold wholePlace
  split <;> rfl

/-- A digit begins a number without a sign. -/
theorem begin_digitByte {d : Nat} (hd : d < 10) :
    begin (digitByte d) = ([], .number (wholePlace [d]) ⟨false, [d], none, none⟩) := by
  interval_cases d <;> rfl

/-- The first digit of a number is read alike with and without a sign before it. -/
private theorem tokensFrom_firstDigit (negative : Bool) {d : Nat} (hd : d < 10) (rest : Bytes) :
    tokensFrom .between ((if negative then [0x2D] else []) ++ digitByte d :: rest) =
      tokensFrom (.number (wholePlace [d]) ⟨negative, [d], none, none⟩) rest := by
  cases negative with
  | false =>
    simp only [Bool.false_eq_true, if_false, List.nil_append]
    rw [tokensFrom_cons, step, begin_digitByte hd, List.nil_append]
  | true =>
    have hafter : NumberPlace.sign.afterDigit d = some (wholePlace [d]) := by
      interval_cases d <;> rfl
    have hsign : tokensFrom .between (0x2D :: digitByte d :: rest) =
        tokensFrom (.number .sign ⟨true, [], none, none⟩) (digitByte d :: rest) := rfl
    simp only [if_true, List.singleton_append]
    rw [hsign, tokensFrom_digit hd hafter]
    rfl

/-- The sign and the whole digits. -/
private theorem tokensFrom_writtenWhole {n : Numeral} (h : n.IsWellFormed) (rest : Bytes) :
    tokensFrom .between (n.writtenWhole ++ rest) =
      tokensFrom (.number (wholePlace n.whole) ⟨n.negative, n.whole, none, none⟩) rest := by
  obtain ⟨first, more, hdigits⟩ : ∃ first more, n.whole.reverse = first :: more :=
    List.exists_cons_of_ne_nil (by simpa using h.whole_ne_nil)
  have hwhole : n.whole = more.reverse ++ [first] := by
    simpa using congrArg List.reverse hdigits
  have hlt : ∀ d ∈ first :: more, d < 10 := fun d hd =>
    h.whole_lt d (List.mem_reverse.mp (hdigits ▸ hd))
  rw [Numeral.writtenWhole, hdigits, List.map_cons, List.append_assoc, List.cons_append,
    tokensFrom_firstDigit n.negative (hlt first List.mem_cons_self)]
  by_cases hfirst : first = 0
  · -- Nothing follows a zero in front.
    have hzero : n.whole = [0] := h.leading (by simp [hwhole, hfirst])
    obtain ⟨rfl, rfl⟩ : first = 0 ∧ more = [] := by simpa [hzero] using hdigits.symm
    rw [hzero]
    rfl
  · -- Behind any other digit the rest is taken in one by one.
    have hplace : wholePlace [first] = .whole := if_neg (by simpa using hfirst)
    have hplace' : wholePlace n.whole = .whole := by
      refine if_neg fun hzero => hfirst ?_
      rw [hzero, List.reverse_singleton] at hdigits
      exact (List.cons.inj hdigits).1.symm
    have hmore : ∀ d ∈ more, d < 10 := fun d hd => hlt d (List.mem_cons_of_mem _ hd)
    rw [hplace, hplace', tokensFrom_digits (fun _ => rfl) hmore, foldl_push_whole, hwhole]

/-- A point and the digits behind it. -/
private theorem tokensFrom_writtenFraction {place : NumberPlace} (hplace : place.allowsPoint = true)
    {n : Numeral} (hn : n.fraction = none) {digits : List Nat} (hne : digits ≠ [])
    (hlt : ∀ d ∈ digits, d < 10) (rest : Bytes) :
    tokensFrom (.number place n) (0x2E :: digits.reverse.map digitByte ++ rest) =
      tokensFrom (.number .fraction { n with fraction := some digits }) rest := by
  have hpoint : step (.number place n) 0x2E = ([], .number .point n) := by
    have hdigit : digit? 0x2E = none := by decide
    simp [step, stepNumber, hdigit, hplace]
  have hne' : digits.reverse ≠ [] := by simpa using hne
  have hlt' : ∀ d ∈ digits.reverse, d < 10 := fun d hd => hlt d (List.mem_reverse.mp hd)
  rw [List.cons_append, tokensFrom_cons, hpoint, List.nil_append,
    tokensFrom_part .point .fraction (fun _ => rfl) (fun _ => rfl) (fun _ => rfl) hne' hlt',
    foldl_push_fraction hne', hn]
  simp

/-- The letter of an exponent, its sign and its digits. -/
private theorem tokensFrom_writtenExponent {place : NumberPlace} (hplace : place.allowsMark = true)
    {n : Numeral} (hn : n.exponent = none) {letter : UInt8} (hletter : Numeral.IsMark letter)
    (minus plus : Bool) {digits : List Nat} (hne : digits ≠ []) (hlt : ∀ d ∈ digits, d < 10)
    (rest : Bytes) :
    tokensFrom (.number place n)
        (letter :: (if minus then [0x2D] else if plus then [0x2B] else []) ++
          digits.reverse.map digitByte ++ rest) =
      tokensFrom (.number .exponent { n with exponent := some (minus, digits) }) rest := by
  have hmark : step (.number place n) letter = ([], .number .mark n) := by
    rcases hletter with rfl | rfl
    · have hdigit : digit? 0x65 = none := by decide
      simp [step, stepNumber, hdigit, hplace]
    · have hdigit : digit? 0x45 = none := by decide
      simp [step, stepNumber, hdigit, hplace]
  have hne' : digits.reverse ≠ [] := by simpa using hne
  have hlt' : ∀ d ∈ digits.reverse, d < 10 := fun d hd => hlt d (List.mem_reverse.mp hd)
  rw [List.cons_append, List.cons_append, tokensFrom_cons, hmark, List.nil_append,
    List.append_assoc]
  -- After the letter come a minus sign, a plus sign or the digits at once.
  by_cases hsign : minus = true ∨ plus = true
  · have hsigned : (if minus then [0x2D] else if plus then [0x2B] else []) =
        [if minus then (0x2D : UInt8) else 0x2B] := by
      cases minus <;> cases plus <;> simp_all
    have hstep : step (.number .mark n) (if minus then 0x2D else 0x2B) =
        ([], .number .exponentSign { n with exponent := some (minus, []) }) := by
      cases minus <;> rfl
    rw [hsigned, List.singleton_append, tokensFrom_cons, hstep, List.nil_append,
      tokensFrom_part .exponentSign .exponent (fun _ => rfl) (fun _ => rfl) (fun _ => rfl) hne'
        hlt',
      foldl_push_exponent hne']
    simp
  · obtain ⟨rfl, rfl⟩ : minus = false ∧ plus = false := by simpa using hsign
    simp only [Bool.false_eq_true, if_false, List.nil_append]
    rw [tokensFrom_part .mark .exponent (fun _ => rfl) (fun _ => rfl) (fun _ => rfl) hne' hlt',
      foldl_push_exponent hne', hn]
    simp

/-- A number ends before a byte that does not continue it. -/
private theorem tokensFrom_end {place : NumberPlace} (hplace : place.isEnd = true) (n : Numeral)
    {rest : Bytes} (hrest : ∀ b ∈ rest.head?, continuesNumber b = false) :
    tokensFrom (.number place n) rest = .number n :: tokensFrom .between rest := by
  cases rest with
  | nil => simp [tokensFrom, Scan.atEnd, hplace]
  | cons b rest =>
    -- The number is handed out, and the byte begins what comes next.
    have hb : continuesNumber b = false := hrest b rfl
    simp only [continuesNumber, Bool.or_eq_false_iff, Option.isSome_eq_false_iff,
      Option.isNone_iff_eq_none] at hb
    obtain ⟨⟨⟨hdigit, hpoint⟩, he⟩, hE⟩ := hb
    have hstep : step (.number place n) b = (.number n :: (begin b).1, (begin b).2) := by
      cases place with
      | zero | whole | fraction | exponent =>
        simp [step, stepNumber, hdigit, hpoint, he, hE, NumberPlace.isEnd]
      | sign | point | mark | exponentSign => cases hplace
    rw [tokensFrom_cons, hstep]
    rfl

/-- A written number is read as what it was written for. -/
theorem tokensFrom_written {n : Numeral} {bytes rest : Bytes} (h : n.IsWritten bytes)
    (hrest : ∀ b ∈ rest.head?, continuesNumber b = false) :
    tokensFrom .between (bytes ++ rest) = .number n :: tokensFrom .between rest := by
  obtain ⟨hwell, letter, plus, hletter, rfl⟩ := h
  -- Behind the decimal places, if there are any, the number may end or have an exponent.
  obtain ⟨place, hmark, hend, hfraction⟩ : ∃ place : NumberPlace, place.allowsMark = true ∧
      place.isEnd = true ∧ ∀ after : Bytes,
        tokensFrom (.number (wholePlace n.whole) ⟨n.negative, n.whole, none, none⟩)
            (n.writtenFraction ++ after) =
          tokensFrom (.number place ⟨n.negative, n.whole, n.fraction, none⟩) after := by
    have hplace : (wholePlace n.whole).allowsPoint = true ∧
        (wholePlace n.whole).allowsMark = true := by
      unfold wholePlace
      split <;> exact ⟨rfl, rfl⟩
    rw [Numeral.writtenFraction]
    cases hn : n.fraction with
    | none => exact ⟨wholePlace n.whole, hplace.2, isEnd_wholePlace _, fun after => rfl⟩
    | some digits =>
      obtain ⟨hne, hlt⟩ := hwell.fraction digits hn
      exact ⟨.fraction, rfl, rfl, tokensFrom_writtenFraction hplace.1 rfl hne hlt⟩
  rw [List.append_assoc, List.append_assoc, tokensFrom_writtenWhole hwell, hfraction,
    Numeral.writtenExponent]
  cases hn : n.exponent with
  | none =>
    rw [List.nil_append, tokensFrom_end hend _ hrest, ← hn]
  | some exponent =>
    obtain ⟨minus, digits⟩ := exponent
    obtain ⟨hne, hlt⟩ := hwell.exponent minus digits hn
    have hexponent := tokensFrom_writtenExponent hmark
      (n := ⟨n.negative, n.whole, n.fraction, none⟩) rfl hletter minus plus hne hlt rest
    rw [hexponent, tokensFrom_end rfl _ hrest, ← hn]

/-! ## What has been read at a place -/

namespace Numeral

/-- What the bytes are when the scanner has read a number up to a place. -/
def Reaches (n : Numeral) (place : NumberPlace) (bytes : Bytes) : Prop :=
  -- Behind a point, a letter or a sign the number cannot end, so they are kept apart from it.
  match place with
  | .sign => n = ⟨true, [], none, none⟩ ∧ bytes = [0x2D]
  | .zero => n.fraction = none ∧ n.exponent = none ∧ n.IsWritten bytes
  | .whole => n.whole.getLast? ≠ some 0 ∧ n.fraction = none ∧ n.exponent = none ∧ n.IsWritten bytes
  | .point => ∃ before, bytes = before ++ [0x2E] ∧ n.fraction = none ∧ n.exponent = none ∧
      n.IsWritten before
  | .fraction => n.fraction.isSome = true ∧ n.exponent = none ∧ n.IsWritten bytes
  | .mark => ∃ before letter, bytes = before ++ [letter] ∧ IsMark letter ∧ n.exponent = none ∧
      n.IsWritten before
  | .exponentSign => ∃ before letter minus,
      bytes = before ++ [letter, if minus then 0x2D else 0x2B] ∧ IsMark letter ∧
      n.exponent = some (minus, []) ∧ ({ n with exponent := none } : Numeral).IsWritten before
  | .exponent => n.exponent.isSome = true ∧ n.IsWritten bytes

/-- Where a number may end, it has been written. -/
private theorem Reaches.isWritten {n : Numeral} {place : NumberPlace} {bytes : Bytes}
    (h : n.Reaches place bytes) (hend : place.isEnd = true) : n.IsWritten bytes := by
  cases place with
  | zero => exact h.2.2
  | whole => exact h.2.2.2
  | fraction => exact h.2.2
  | exponent => exact h.2
  | sign | point | mark | exponentSign => cases hend

/-- One digit more in front of the point. -/
private theorem IsWritten.push_whole {n : Numeral} {bytes : Bytes} {d : Nat} (h : n.IsWritten bytes)
    (hlead : n.whole.getLast? ≠ some 0) (hfraction : n.fraction = none)
    (hexponent : n.exponent = none) (hd : d < 10) :
    (n.push .whole d).IsWritten (bytes ++ [digitByte d]) := by
  obtain ⟨hwell, letter, plus, hletter, rfl⟩ := h
  refine ⟨⟨List.cons_ne_nil _ _, ?_, ?_, hwell.fraction, hwell.exponent⟩, letter, plus, hletter, ?_⟩
  · exact List.forall_mem_cons.mpr ⟨hd, hwell.whole_lt⟩
  · -- The first digit stays the first one, and it was no zero.
    intro hzero
    have hlast : (d :: n.whole).getLast? = n.whole.getLast? := by
      obtain ⟨first, more, hwhole⟩ := List.exists_cons_of_ne_nil hwell.whole_ne_nil
      rw [hwhole, List.getLast?_cons_cons]
    exact absurd (hlast ▸ hzero) hlead
  · simp [writtenWhole, writtenFraction, writtenExponent, push, hfraction, hexponent]

/-- One digit more behind the point, which comes before the first one. -/
private theorem IsWritten.push_fraction {n : Numeral} {bytes : Bytes} {d : Nat}
    (h : n.IsWritten bytes) (hexponent : n.exponent = none) (hd : d < 10) :
    (n.push .fraction d).IsWritten
      (bytes ++ (if n.fraction.isSome then [] else [0x2E]) ++ [digitByte d]) := by
  obtain ⟨hwell, letter, plus, hletter, rfl⟩ := h
  refine ⟨⟨hwell.whole_ne_nil, hwell.whole_lt, hwell.leading, ?_, hwell.exponent⟩,
    letter, plus, hletter, ?_⟩
  · -- The digits that were there before are as they should be, if there were any.
    rintro digits heq
    obtain rfl := Option.some.inj heq
    refine ⟨List.cons_ne_nil _ _, List.forall_mem_cons.mpr ⟨hd, ?_⟩⟩
    cases hn : n.fraction with
    | none => simp
    | some before => exact (hwell.fraction before hn).2
  · cases hn : n.fraction <;>
      simp [writtenWhole, writtenFraction, writtenExponent, push, hn, hexponent]

/-- The first digit of an exponent, with what stands before it. -/
private theorem IsWritten.push_exponentSign {n : Numeral} {bytes : Bytes} {d : Nat} {letter : UInt8}
    (h : n.IsWritten bytes) (hexponent : n.exponent = none) (hletter : IsMark letter)
    (minus plus : Bool) (hd : d < 10) :
    ({ n with exponent := some (minus, [d]) } : Numeral).IsWritten
      (bytes ++ letter :: (if minus then [0x2D] else if plus then [0x2B] else []) ++
        [digitByte d]) := by
  obtain ⟨hwell, _, _, _, rfl⟩ := h
  refine ⟨⟨hwell.whole_ne_nil, hwell.whole_lt, hwell.leading, hwell.fraction, ?_⟩,
    letter, plus, hletter, ?_⟩
  · rintro _ _ heq
    obtain ⟨rfl, rfl⟩ := Prod.mk.inj (Option.some.inj heq)
    exact ⟨List.cons_ne_nil _ _, by simpa using hd⟩
  · simp [writtenWhole, writtenFraction, writtenExponent, hexponent]

/-- One digit more of an exponent. -/
private theorem IsWritten.push_exponent {n : Numeral} {bytes : Bytes} {d : Nat}
    (h : n.IsWritten bytes) (hexponent : n.exponent.isSome = true) (hd : d < 10) :
    (n.push .exponent d).IsWritten (bytes ++ [digitByte d]) := by
  obtain ⟨hwell, letter, plus, hletter, rfl⟩ := h
  obtain ⟨⟨minus, digits⟩, hn⟩ := Option.isSome_iff_exists.mp hexponent
  refine ⟨⟨hwell.whole_ne_nil, hwell.whole_lt, hwell.leading, hwell.fraction, ?_⟩,
    letter, plus, hletter, ?_⟩
  · rintro minus' digits' heq
    simp only [push, hn, Option.getD_some, Option.some.injEq, Prod.mk.injEq] at heq
    obtain ⟨rfl, rfl⟩ := heq
    exact ⟨List.cons_ne_nil _ _, List.forall_mem_cons.mpr ⟨hd, (hwell.exponent _ _ hn).2⟩⟩
  · simp [writtenWhole, writtenFraction, writtenExponent, push, hn]

/-- The first digit of a number. -/
theorem reaches_firstDigit (negative : Bool) {d : Nat} (hd : d < 10) :
    (⟨negative, [d], none, none⟩ : Numeral).Reaches (wholePlace [d])
      ((if negative then [0x2D] else []) ++ [digitByte d]) := by
  have hwritten : (⟨negative, [d], none, none⟩ : Numeral).IsWritten
      ((if negative then [0x2D] else []) ++ [digitByte d]) := by
    refine ⟨⟨List.cons_ne_nil _ _, by simpa using hd, by simp, by simp, by simp⟩,
      0x65, false, .inl rfl, ?_⟩
    simp [writtenWhole, writtenFraction, writtenExponent]
  -- After a zero no other digit may follow, so it leads to a place of its own.
  by_cases hzero : d = 0
  · subst hzero
    exact ⟨rfl, rfl, hwritten⟩
  · have hplace : wholePlace [d] = .whole := if_neg (by simpa using hzero)
    rw [hplace]
    exact ⟨by simpa using hzero, rfl, rfl, hwritten⟩

/-- A digit leads from what was read at a place to what was read at the next one. -/
theorem Reaches.push {n : Numeral} {place next : NumberPlace} {bytes : Bytes} {d : Nat}
    (h : n.Reaches place bytes) (hd : d < 10) (hnext : place.afterDigit d = some next) :
    (n.push place d).Reaches next (bytes ++ [digitByte d]) := by
  cases place with
  | sign =>
    -- A zero decides at once that no other whole digit follows.
    obtain ⟨rfl, rfl⟩ := h
    have hplace : next = wholePlace [d] := by
      rw [← Option.some.inj hnext, wholePlace]
      simp
    rw [hplace]
    exact reaches_firstDigit true hd
  | zero => cases hnext
  | whole =>
    obtain rfl := Option.some.inj hnext
    obtain ⟨hlead, hfraction, hexponent, hwritten⟩ := h
    refine ⟨?_, hfraction, hexponent, hwritten.push_whole hlead hfraction hexponent hd⟩
    obtain ⟨first, more, hwhole⟩ := List.exists_cons_of_ne_nil hwritten.1.whole_ne_nil
    rw [hwhole] at hlead
    simpa [Numeral.push, hwhole, List.getLast?_cons_cons] using hlead
  | point =>
    obtain rfl := Option.some.inj hnext
    obtain ⟨before, rfl, hfraction, hexponent, hwritten⟩ := h
    have hdigit := hwritten.push_fraction hexponent hd
    rw [hfraction] at hdigit
    exact ⟨rfl, hexponent, hdigit⟩
  | fraction =>
    obtain rfl := Option.some.inj hnext
    obtain ⟨hfraction, hexponent, hwritten⟩ := h
    have hdigit := hwritten.push_fraction hexponent hd
    rw [hfraction, if_pos rfl, List.append_nil] at hdigit
    exact ⟨rfl, hexponent, hdigit⟩
  | mark =>
    -- Without a sign the digit comes right behind the letter.
    obtain rfl := Option.some.inj hnext
    obtain ⟨before, letter, rfl, hletter, hexponent, hwritten⟩ := h
    have hdigit := hwritten.push_exponentSign hexponent hletter false false hd
    refine ⟨rfl, ?_⟩
    simpa [Numeral.push, hexponent] using hdigit
  | exponentSign =>
    obtain rfl := Option.some.inj hnext
    obtain ⟨before, letter, minus, rfl, hletter, hexponent, hwritten⟩ := h
    have hdigit := hwritten.push_exponentSign rfl hletter minus true hd
    refine ⟨rfl, ?_⟩
    cases minus <;> simpa [Numeral.push, hexponent] using hdigit
  | exponent =>
    obtain rfl := Option.some.inj hnext
    obtain ⟨hexponent, hwritten⟩ := h
    exact ⟨rfl, hwritten.push_exponent hexponent hd⟩

end Numeral

/-! ## What is read as a number -/

/-- Whether a token stands for a fault. -/
def Token.isFault : Token → Bool
  | .brokenText _ | .brokenScalar _ | .stray => true
  | _ => false

/-- What one byte can do in a number, with the outcome. -/
inductive NumberStep (place : NumberPlace) (n : Numeral) : UInt8 → List Token × Scan → Prop where
  | digit {d : Nat} {next : NumberPlace} (hd : d < 10) (h : place.afterDigit d = some next) :
    NumberStep place n (digitByte d) ([], .number next (n.push place d))
  | point (h : place.allowsPoint = true) : NumberStep place n 0x2E ([], .number .point n)
  | mark {b : UInt8} (hb : Numeral.IsMark b) (h : place.allowsMark = true) :
    NumberStep place n b ([], .number .mark n)
  | sign (minus : Bool) (h : place = .mark) :
    NumberStep place n (if minus then 0x2D else 0x2B)
      ([], .number .exponentSign { n with exponent := some (minus, []) })
  | done {b : UInt8} (h : place.isEnd = true) (hb : digit? b = none) :
    NumberStep place n b (.number n :: (begin b).1, (begin b).2)
  | fault {b : UInt8} : NumberStep place n b ([.brokenScalar (.same .malformed)], .stopped)

/-- There is nothing else that a byte can do in a number. -/
private theorem numberStep_stepNumber (place : NumberPlace) (n : Numeral) (b : UInt8) :
    NumberStep place n b (stepNumber place n b) := by
  unfold stepNumber
  -- The tests come in the order in which the step makes them.
  cases hdigit : digit? b with
  | some d =>
    obtain ⟨hd, rfl⟩ := digit?_eq_some hdigit
    simp only
    cases hnext : place.afterDigit d with
    | some next => exact .digit hd hnext
    | none => exact .fault
  | none =>
    simp only
    by_cases hpoint : (b == 0x2E && place.allowsPoint) = true
    · rw [if_pos hpoint]
      obtain ⟨rfl, hplace⟩ : b = 0x2E ∧ place.allowsPoint = true := by simpa using hpoint
      exact .point hplace
    rw [if_neg hpoint]
    by_cases hmark : ((b == 0x65 || b == 0x45) && place.allowsMark) = true
    · rw [if_pos hmark]
      obtain ⟨hb, hplace⟩ : Numeral.IsMark b ∧ place.allowsMark = true := by
        simpa [Numeral.IsMark] using hmark
      exact .mark hb hplace
    rw [if_neg hmark]
    by_cases hsign : place = .mark ∧ (b = 0x2B ∨ b = 0x2D)
    · obtain ⟨rfl, rfl | rfl⟩ := hsign
      · exact .sign false rfl
      · exact .sign true rfl
    rw [if_neg (by cases place <;> simp_all)]
    by_cases hend : place.isEnd = true
    · rw [if_pos hend]
      exact .done hend hdigit
    · rw [if_neg hend]
      exact .fault

/-- What is read as a number without a fault was written for it, and ends where it can. -/
theorem exists_written_of_tokensFrom {place : NumberPlace} {n : Numeral} {before bytes : Bytes}
    (h : n.Reaches place before)
    (hsound : ∀ t ∈ tokensFrom (.number place n) bytes, t.isFault = false) :
    ∃ more rest n', bytes = more ++ rest ∧ n'.IsWritten (before ++ more) ∧
      (∀ b ∈ rest.head?, continuesNumber b = false) ∧
      tokensFrom (.number place n) bytes = .number n' :: tokensFrom .between rest := by
  -- Induction on the bytes; `h` describes those that have been read, for every place.
  induction bytes generalizing place n before with
  | nil =>
    cases hend : place.isEnd with
    | true =>
      refine ⟨[], [], n, rfl, by simpa using h.isWritten hend, by simp, ?_⟩
      simp [tokensFrom, Scan.atEnd, hend]
    | false => simp [tokensFrom, Scan.atEnd, hend, Token.isFault] at hsound
  | cons b bytes ih =>
    -- A byte that belongs to the number leads to a place that has been described.
    have hmore {next : NumberPlace} {n' : Numeral} (hnext : n'.Reaches next (before ++ [b]))
        (hsound : ∀ t ∈ tokensFrom (.number next n') bytes, t.isFault = false) :
        ∃ more rest n'', b :: bytes = more ++ rest ∧ n''.IsWritten (before ++ more) ∧
          (∀ b ∈ rest.head?, continuesNumber b = false) ∧
          tokensFrom (.number next n') bytes = .number n'' :: tokensFrom .between rest := by
      obtain ⟨more, rest, n'', rfl, hwritten, hrest, htokens⟩ := ih hnext hsound
      exact ⟨b :: more, rest, n'', rfl, by simpa using hwritten, hrest, htokens⟩
    have hcases := numberStep_stepNumber place n b
    have hstep : step (.number place n) b = stepNumber place n b := rfl
    rw [tokensFrom_cons, hstep] at hsound ⊢
    generalize stepNumber place n b = result at hcases hsound ⊢
    cases hcases with
    | digit hd hnext => exact hmore (h.push hd hnext) hsound
    | point hpoint =>
      refine hmore ?_ hsound
      cases place with
      | zero => exact ⟨before, rfl, h.1, h.2.1, h.2.2⟩
      | whole => exact ⟨before, rfl, h.2.1, h.2.2.1, h.2.2.2⟩
      | _ => cases hpoint
    | mark hb hmark =>
      refine hmore ?_ hsound
      cases place with
      | zero => exact ⟨before, b, rfl, hb, h.2.1, h.2.2⟩
      | whole => exact ⟨before, b, rfl, hb, h.2.2.1, h.2.2.2⟩
      | fraction => exact ⟨before, b, rfl, hb, h.2.1, h.2.2⟩
      | _ => cases hmark
    | sign minus hmark =>
      subst hmark
      obtain ⟨before, letter, rfl, hletter, hexponent, hwritten⟩ := h
      refine hmore ⟨before, letter, minus, by simp, hletter, rfl, ?_⟩ hsound
      rwa [← hexponent]
    | done hend hdigit =>
      refine ⟨[], b :: bytes, n, rfl, by simpa using h.isWritten hend, ?_, rfl⟩
      rintro b' hb'
      obtain rfl := Option.some.inj hb'
      -- A point or the letter of an exponent begins no token.
      refine Bool.eq_false_iff.mpr fun hcontinues => ?_
      have hstray : begin b = ([.stray], .stopped) := by
        simp only [continuesNumber, hdigit, Option.isSome_none, Bool.false_or, Bool.or_eq_true,
          beq_iff_eq] at hcontinues
        rcases hcontinues with (rfl | rfl) | rfl <;> rfl
      have := hsound .stray (by simp [hstray])
      cases this
    | fault =>
      have := hsound (.brokenScalar (.same .malformed)) (by simp)
      cases this

end ContainerAudit.Json
