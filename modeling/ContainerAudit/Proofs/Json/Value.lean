import ContainerAudit.Json.Value
import ContainerAudit.Proofs.Json.Tree
import ContainerAudit.Proofs.Text.Utf8
import Mathlib.Data.Nat.Digits.Defs

/-!
# What a writer writes

A written value is a text of a tree, part by part: digits spell a number, the characters of a text
and their escapes spell a string, and brackets, commas and colons keep the parts apart.

## Key results

- `Numeral.value_ofInt`: an integer of 64 bits keeps its value
- `isBody_escaped`: an escaped text has that text as its content
- `isText_render`: what is written for a value is a text of the tree of the value
-/

namespace ContainerAudit.Json

open Text (Bytes encode)

/-! ## Integers -/

/-- The decimal digits of a number, the last one first. -/
def decimal (n : Nat) : List Nat := if n = 0 then [0] else Nat.digits 10 n

/-- A number below ten is its only digit. -/
private theorem decimal_of_lt {n : Nat} (h : n < 10) : decimal n = [n] := by
  unfold decimal
  split
  · rename_i hzero
    rw [hzero]
  · rename_i hne
    exact Nat.digits_of_lt 10 n hne h

/-- Any other number has its last digit and those of its tenth part. -/
private theorem decimal_of_le {n : Nat} (h : 10 ≤ n) : decimal n = n % 10 :: decimal (n / 10) := by
  have hdiv : n / 10 ≠ 0 := by omega
  rw [decimal, decimal, if_neg (by omega), if_neg hdiv, Nat.digits_def' (by decide) (by omega)]

/-- Induction over decimal digits, from the first one on. -/
private theorem decimal_induct {P : Nat → Prop} (digit : ∀ n < 10, P n)
    (append : ∀ n, 10 ≤ n → P (n / 10) → P n) (n : Nat) : P n := by
  induction n using Nat.strong_induction_on with
  | _ n ih =>
    by_cases h : n < 10
    · exact digit n h
    · exact append n (by omega) (ih (n / 10) (by omega))

/-- Digits are below ten. -/
private theorem lt_of_mem_decimal {n d : Nat} (h : d ∈ decimal n) : d < 10 := by
  induction n using decimal_induct with
  | digit n hn =>
    rw [decimal_of_lt hn, List.mem_singleton] at h
    omega
  | append n hn ih =>
    rw [decimal_of_le hn, List.mem_cons] at h
    rcases h with rfl | h
    · exact Nat.mod_lt _ (by decide)
    · exact ih h

/-- Every number has a digit. -/
private theorem decimal_ne_nil (n : Nat) : decimal n ≠ [] := by
  induction n using decimal_induct with
  | digit n hn => simp [decimal_of_lt hn]
  | append n hn ih => simp [decimal_of_le hn]

/-- Only the number zero begins with a zero. -/
private theorem getLast?_decimal_eq_zero {n : Nat} (h : (decimal n).getLast? = some 0) : n = 0 := by
  induction n using decimal_induct with
  | digit n hn => simpa [decimal_of_lt hn] using h
  | append n hn ih =>
    obtain ⟨first, rest, hrest⟩ := List.exists_cons_of_ne_nil (decimal_ne_nil (n / 10))
    rw [decimal_of_le hn, hrest, List.getLast?_cons_cons, ← hrest] at h
    have := ih h
    omega

/-- The character of a digit has the byte of that digit. -/
private theorem utf8EncodeChar_digitChar {d : Nat} (h : d < 10) :
    String.utf8EncodeChar (Nat.digitChar d) = [digitByte d] := by
  have hall : ∀ d < 10, String.utf8EncodeChar (Nat.digitChar d) = [digitByte d] := by decide
  exact hall d h

/-- A number is written with the bytes of its digits. -/
private theorem encode_repr (n : Nat) : encode n.repr = (decimal n).reverse.map digitByte := by
  rw [Nat.repr_eq_ofList_toDigits, Text.encode_ofList]
  induction n using decimal_induct with
  | digit n hn =>
    rw [Nat.toDigits_of_lt_base hn, decimal_of_lt hn]
    simp [utf8EncodeChar_digitChar hn]
  | append n hn ih =>
    rw [Nat.toDigits_of_base_le (by decide) hn, decimal_of_le hn, List.flatMap_append, ih]
    simp [utf8EncodeChar_digitChar (Nat.mod_lt n (by decide))]

namespace Numeral

/-- An integer as it is written. -/
def ofInt (value : Int) : Numeral := ⟨decide (value < 0), decimal value.natAbs, none, none⟩

/-- An integer is written as a number without decimal places and exponent. -/
private theorem isWritten_ofInt (value : Int) :
    (ofInt value).IsWritten (encode (toString value)) := by
  have hwell : (ofInt value).IsWellFormed := by
    refine ⟨decimal_ne_nil _, fun d => lt_of_mem_decimal, fun hlead => ?_, nofun, nofun⟩
    have hzero : value.natAbs = 0 := getLast?_decimal_eq_zero hlead
    simp [ofInt, hzero, decimal]
  refine ⟨hwell, 0x65, false, .inl rfl, ?_⟩
  -- The sign is written for the integers below zero and for no others.
  cases value with
  | ofNat n =>
    have hsign : ¬(n : Int) < 0 := by omega
    have htext : toString (Int.ofNat n) = n.repr := rfl
    rw [htext, encode_repr]
    simp [writtenWhole, writtenFraction, writtenExponent, ofInt, hsign]
  | negSucc n =>
    have htext : toString (Int.negSucc n) = "-" ++ (n + 1).repr := rfl
    have hminus : encode "-" = [0x2D] := by decide
    simp [htext, Text.encode_append, hminus, encode_repr, writtenWhole, writtenFraction,
      writtenExponent, ofInt]

end Numeral

/-- The digits of a number add up to it. -/
private theorem foldl_decimal (n : Nat) :
    (decimal n).reverse.foldl (fun n d => n * 10 + d) 0 = n := by
  induction n using decimal_induct with
  | digit n hn => simp [decimal_of_lt hn]
  | append n hn ih =>
    rw [decimal_of_le hn, List.reverse_cons, List.foldl_append, ih, List.foldl_cons, List.foldl_nil]
    omega

/-- More digits never make a number less. -/
private theorem le_foldl_digits (digits : List Nat) (n : Nat) :
    n ≤ digits.foldl (fun n d => n * 10 + d) n := by
  induction digits generalizing n with
  | nil => exact le_rfl
  | cons d digits ih =>
    have hstep : n ≤ n * 10 + d := by omega
    exact hstep.trans (ih _)

/-- All digits count where the number fits 64 bits. -/
private theorem appendDigits_eq {n : Nat} {digits : List Nat}
    (h : digits.foldl (fun n d => n * 10 + d) n < UInt64.size) :
    appendDigits n digits = (digits.foldl (fun n d => n * 10 + d) n, []) := by
  induction digits generalizing n with
  | nil => rfl
  | cons d digits ih =>
    have hfits : n * 10 + d < UInt64.size := (le_foldl_digits digits _).trans_lt h
    rw [appendDigits, if_pos hfits, ih h, List.foldl_cons]

/-- An integer of 64 bits, signed or not, is read as itself. -/
theorem Numeral.value_ofInt {value : Int} (hlow : -0x8000000000000000 ≤ value)
    (hhigh : value ≤ 0xFFFFFFFFFFFFFFFF) : (ofInt value).value = .integer value := by
  have hsize : UInt64.size = 0x10000000000000000 := rfl
  have hhead : appendDigits 0 (decimal value.natAbs).reverse = (value.natAbs, []) := by
    rw [appendDigits_eq] <;> rw [foldl_decimal]
    omega
  simp only [Numeral.value, ofInt, hhead]
  -- A zero with a sign would be no integer, but none is written with one.
  by_cases hneg : value < 0
  · have hsmall : 0 < value.natAbs ∧ value.natAbs ≤ 0x8000000000000000 := by omega
    have habs : -(value.natAbs : Int) = value := by omega
    simp only [hneg, hsmall, habs, Option.isNone_none, List.isEmpty_nil, decide_true, Bool.and_self,
      Bool.not_true, Bool.false_eq_true, if_true, if_false]
  · have habs : (value.natAbs : Int) = value := by omega
    simp only [hneg, habs, Option.isNone_none, List.isEmpty_nil, decide_false, Bool.and_self,
      Bool.not_false, if_true]

/-! ## Strings -/

/-- The content of a string whose bytes so far are these. -/
def Content.ofBytes (bytes : Bytes) : Content := ⟨some bytes.reverse, none⟩

/-- Bytes are added at the end. -/
private theorem Content.push_ofBytes (before bytes : Bytes) :
    (ofBytes before).push bytes = ofBytes (before ++ bytes) := by
  simp [ofBytes, push]

/-- The bytes of a text have it as their content. -/
private theorem Content.text_ofBytes_encode (s : String) : (ofBytes (encode s)).text = some s := by
  simp [ofBytes, text, Text.decode?_encode]

/-- Bytes that stand for themselves. -/
private theorem isBody_append_plain {bytes : Bytes}
    (hplain : ∀ b ∈ bytes, 0x20 ≤ b ∧ b ≠ 0x22 ∧ b ≠ 0x5C) {before rest : Bytes} {c : Content}
    (h : IsBody (.ofBytes (before ++ bytes)) rest c) :
    IsBody (.ofBytes before) (bytes ++ rest) c := by
  induction bytes generalizing before with
  | nil => simpa using h
  | cons b bytes ih =>
    obtain ⟨⟨hcontrol, hquote, hescape⟩, hplain⟩ := List.forall_mem_cons.mp hplain
    refine .plain hcontrol hquote hescape ?_
    rw [Content.push_ofBytes]
    exact ih hplain (by simpa using h)

/-- An escape with one letter. -/
private theorem isBody_append_letter {letter byte : UInt8} (hletter : escaped? letter = some byte)
    {before rest : Bytes} {c : Content} (h : IsBody (.ofBytes (before ++ [byte])) rest c) :
    IsBody (.ofBytes before) ([0x5C, letter] ++ rest) c := by
  refine .escape hletter ?_
  rwa [Content.push_ofBytes]

/-- The byte of a hexadecimal digit. -/
def hexByte (d : Nat) : UInt8 := UInt8.ofNat (Nat.digitChar d).toNat

/-- An escape with the number of a control character. -/
private theorem isBody_append_control {n : Nat} (hn : n < 0x20) {before rest : Bytes} {c : Content}
    (h : IsBody (.ofBytes (before ++ String.utf8EncodeChar (Char.ofNat n))) rest c) :
    IsBody (.ofBytes before)
      ([0x5C, 0x75, 0x30, 0x30, hexByte (n / 16), hexByte (n % 16)] ++ rest) c := by
  -- There are so few control characters that each can be looked at.
  have hall : ∀ n < 0x20, hexValue? [0x30, 0x30, hexByte (n / 16), hexByte (n % 16)] = some n := by
    decide
  -- Their numbers are none of those that stand for half a surrogate pair.
  have hpush : (Content.ofBytes before).pushUnit n =
      .ofBytes (before ++ String.utf8EncodeChar (Char.ofNat n)) := by
    have htrailing : ¬0xDC00 ≤ n := by omega
    have hleading : ¬0xD800 ≤ n := by omega
    rw [← Content.push_ofBytes]
    simp [Content.pushUnit, Content.ofBytes, htrailing, hleading]
  refine .unit (hall n hn) ?_
  rwa [hpush]

/-- A character that needs no escape. -/
private theorem isBody_append_self {ch : Char} (hcontrol : 0x20 ≤ ch.toNat) (hquote : ch ≠ '"')
    (hescape : ch ≠ '\\') {before rest : Bytes} {c : Content}
    (h : IsBody (.ofBytes (before ++ String.utf8EncodeChar ch)) rest c) :
    IsBody (.ofBytes before) (String.utf8EncodeChar ch ++ rest) c := by
  refine isBody_append_plain (fun b hb => ?_) h
  -- A byte below 128 is the only one of its character.
  have hlow (hlt : b < 0x80) : ch.toNat = b.toNat := Text.eq_of_mem_utf8EncodeChar hb hlt
  have heq {ch' : Char} (hval : ch.toNat = ch'.toNat) : ch = ch' := Char.toNat_inj.mp hval
  refine ⟨?_, ?_, ?_⟩
  · refine UInt8.not_lt.mp fun hlt => ?_
    have hlt' : b.toNat < 0x20 := hlt
    have hval := hlow (UInt8.lt_trans hlt (by decide))
    omega
  · rintro rfl
    exact hquote (heq (hlow (by decide)))
  · rintro rfl
    exact hescape (heq (hlow (by decide)))

/-- An escaped character adds that character. -/
private theorem isBody_append_escaped (ch : Char) {before rest : Bytes} {c : Content}
    (h : IsBody (.ofBytes (before ++ String.utf8EncodeChar ch)) rest c) :
    IsBody (.ofBytes before) (encode (escapeText ch) ++ rest) c := by
  unfold escapeText
  by_cases hletter : ch = '"' ∨ ch = '\\' ∨ ch = '\n' ∨ ch = '\r' ∨ ch = '\t' ∨ ch = '\x08' ∨
      ch = '\x0c'
  · -- These characters have escapes with a letter of their own.
    rcases hletter with rfl | rfl | rfl | rfl | rfl | rfl | rfl
    · have hquote : escaped? 0x22 = some 0x22 := rfl
      exact isBody_append_letter hquote h
    · have hbackslash : escaped? 0x5C = some 0x5C := rfl
      exact isBody_append_letter hbackslash h
    · have hn : escaped? 0x6E = some 0x0A := rfl
      exact isBody_append_letter hn h
    · have hr : escaped? 0x72 = some 0x0D := rfl
      exact isBody_append_letter hr h
    · have ht : escaped? 0x74 = some 0x09 := rfl
      exact isBody_append_letter ht h
    · have hb : escaped? 0x62 = some 0x08 := rfl
      exact isBody_append_letter hb h
    · have hf : escaped? 0x66 = some 0x0C := rfl
      exact isBody_append_letter hf h
  · simp only [not_or] at hletter
    obtain ⟨hquote, hescape, hn, hr, ht, hb, hf⟩ := hletter
    rw [if_neg hquote, if_neg hescape, if_neg hn, if_neg hr, if_neg ht, if_neg hb, if_neg hf]
    -- Of the others, only control characters are escaped.
    by_cases hcontrol : ch.toNat < 0x20
    · have hall : ∀ n < 0x20, encode ("\\u00" ++
          String.ofList [Nat.digitChar (n / 16), Nat.digitChar (n % 16)]) =
            [0x5C, 0x75, 0x30, 0x30, hexByte (n / 16), hexByte (n % 16)] := by decide
      rw [if_pos hcontrol, hall _ hcontrol]
      exact isBody_append_control hcontrol (by rwa [Char.ofNat_toNat])
    · have htext : encode ch.toString = String.utf8EncodeChar ch := by
        simp [Text.encode_eq_flatMap]
      rw [if_neg hcontrol, htext]
      exact isBody_append_self (Nat.le_of_not_lt hcontrol) hquote hescape h

/-- An escaped text adds that text. -/
theorem isBody_escaped (chars : List Char) (before : Bytes) :
    IsBody (.ofBytes before) (chars.flatMap fun ch => encode (escapeText ch))
      (.ofBytes (before ++ chars.flatMap String.utf8EncodeChar)) := by
  induction chars generalizing before with
  | nil => simpa using IsBody.nil (.ofBytes before)
  | cons ch chars ih =>
    rw [List.flatMap_cons, List.flatMap_cons, ← List.append_assoc]
    exact isBody_append_escaped ch (ih _)

/-- A written text is a string with that content. -/
private theorem isLexeme_renderText (s : String) :
    IsLexeme (.text (some s)) (encode (renderText s)) := by
  -- The escaped characters, in quotation marks, with the text as their content.
  have hbody := isBody_escaped s.toList []
  rw [List.nil_append, ← Text.encode_eq_flatMap] at hbody
  have hlexeme := IsLexeme.text hbody
  have hquote : encode "\"" = [0x22] := by decide
  have hjoin : encode (String.join (s.toList.map escapeText)) =
      s.toList.flatMap fun ch => encode (escapeText ch) := by
    rw [Text.encode_eq_flatMap, String.toList_join, List.flatMap_map, List.flatMap_assoc]
    simp only [Text.encode_eq_flatMap]
  rw [Content.text_ofBytes_encode] at hlexeme
  rwa [renderText, Text.encode_append, Text.encode_append, hquote, hjoin]

/-! ## Values -/

mutual

/-- The tree of a value. -/
def Value.toTree : Value → Tree
  | .null => .null
  | .boolean value => .boolean value
  | .integer value => .number (.ofInt value)
  | .text value => .text (some value)
  | .array items => .array (itemTrees items) none
  | .object members => .object (memberTrees members) none

/-- The trees of the items of an array. -/
def itemTrees : List Value → List Tree
  | [] => []
  | item :: rest => item.toTree :: itemTrees rest

/-- The trees of the members of an object. -/
def memberTrees : List (String × Value) → List (Option String × Tree)
  | [] => []
  | (name, value) :: rest => (some name, value.toTree) :: memberTrees rest

end

/-- Induction over values, with the parts of an array or object by membership. -/
@[elab_as_elim, induction_eliminator]
theorem Value.induct {P : Value → Prop} (null : P .null) (boolean : ∀ value, P (.boolean value))
    (integer : ∀ value, P (.integer value)) (text : ∀ value, P (.text value))
    (array : ∀ items, (∀ item ∈ items, P item) → P (.array items))
    (object : ∀ members, (∀ m ∈ members, P m.2) → P (.object members)) (v : Value) : P v :=
  @Value.rec P (fun items => ∀ item ∈ items, P item) (fun members => ∀ m ∈ members, P m.2)
    (fun m => P m.2) null boolean integer text array object
    nofun (fun _ _ hitem hitems => List.forall_mem_cons.mpr ⟨hitem, hitems⟩)
    nofun (fun _ _ hm hmembers => List.forall_mem_cons.mpr ⟨hm, hmembers⟩)
    (fun _ _ hvalue => hvalue) v

/-- The trees of items, item by item. -/
theorem itemTrees_eq_map (items : List Value) : itemTrees items = items.map Value.toTree := by
  induction items with
  | nil => rfl
  | cons item rest ih => rw [itemTrees, ih, List.map_cons]

/-- The trees of members, each with its name. -/
theorem memberTrees_eq_map (members : List (String × Value)) :
    memberTrees members = members.map fun m => (some m.1, m.2.toTree) := by
  induction members with
  | nil => rfl
  | cons m rest ih => rw [memberTrees, ih, List.map_cons]

/-- Items are written one by one. -/
private theorem renderItems_eq_map (items : List Value) :
    renderItems items = items.map Value.render := by
  induction items with
  | nil => rfl
  | cons item rest ih => rw [renderItems, ih, List.map_cons]

/-- Members are written one by one, each with its name and a colon. -/
private theorem renderMembers_eq_map (members : List (String × Value)) :
    renderMembers members = members.map fun m => renderText m.1 ++ ":" ++ m.2.render := by
  induction members with
  | nil => rfl
  | cons m rest ih => rw [renderMembers, ih, List.map_cons]

/-- There is no fault in the tree of a value. -/
private theorem Value.isWhole_toTree (v : Value) : v.toTree.IsWhole := by
  induction v with
  | null => exact Tree.isWhole_null
  | boolean value => exact Tree.isWhole_boolean value
  | integer value => exact Tree.isWhole_number _
  | text value => exact Tree.isWhole_text _
  | array items ih =>
    rw [toTree, Tree.isWhole_array_iff, itemTrees_eq_map, List.forall_mem_map]
    exact ⟨ih, rfl⟩
  | object members ih =>
    rw [toTree, Tree.isWhole_object_iff, memberTrees_eq_map, List.forall_mem_map]
    exact ⟨ih, rfl⟩

/-- A single token is spelled by its lexeme. -/
theorem IsLexeme.spelled {t : Token} {lexeme : Bytes} (h : IsLexeme t lexeme) :
    Spelled [t] lexeme := by
  have hend : t.EndsBefore [] := fun _ _ _ hb => nomatch hb
  simpa using Spelled.cons h hend .nil

/-- What is spelled piece by piece is spelled with commas between the pieces. -/
private theorem spelled_intercalate {pieces : List (List Token)} {texts : List Bytes}
    (h : List.Forall₂ Spelled pieces texts) :
    Spelled ([.comma].intercalate pieces) ([0x2C].intercalate texts) := by
  induction h with
  | nil => exact .nil
  | cons hfirst hrest ih =>
    cases hrest with
    | nil => simpa using hfirst
    | cons hsecond hmore =>
      rw [List.intercalate_cons_cons, List.intercalate_cons_cons, List.append_assoc,
        List.append_assoc]
      -- A comma continues no number, so the piece in front of it ends there.
      refine hfirst.append (.cons .comma (Token.endsBefore rfl _) ih) fun b hb => ?_
      obtain rfl := Option.some.inj hb
      rfl

/-- Pieces with commas between them, in brackets. -/
private theorem spelled_bracketed {opening closing : Token} {a b : UInt8}
    (hopen : IsLexeme opening [a]) (hclose : IsLexeme closing [b])
    (hnumber : opening.isNumber = false)
    (hb : continuesNumber b = false) {pieces : List (List Token)} {texts : List Bytes}
    (h : List.Forall₂ Spelled pieces texts) :
    Spelled (opening :: [.comma].intercalate pieces ++ [closing])
      ([a] ++ [0x2C].intercalate texts ++ [b]) := by
  have hinside := (spelled_intercalate h).append hclose.spelled (by simpa using hb)
  rw [List.append_assoc, List.cons_append]
  exact .cons hopen (Token.endsBefore hnumber _) hinside

/-- The text of a value spells its tokens. -/
private theorem Value.spelled_render (v : Value) : Spelled v.toTree.tokens (encode v.render) := by
  -- Induction on the value: its parts spell their tokens, and the brackets keep them together.
  induction v with
  | null => exact IsLexeme.nullName.spelled
  | boolean value =>
    cases value with
    | true => exact IsLexeme.trueName.spelled
    | false => exact IsLexeme.falseName.spelled
  | integer value => exact (IsLexeme.number (Numeral.isWritten_ofInt value)).spelled
  | text value => exact (isLexeme_renderText value).spelled
  | array items ih =>
    have hpieces : List.Forall₂ Spelled (itemTokens (itemTrees items))
        ((renderItems items).map encode) := by
      rw [itemTokens_eq_map, itemTrees_eq_map, renderItems_eq_map, List.map_map, List.map_map,
        List.forall₂_map_left_iff, List.forall₂_map_right_iff, List.forall₂_same]
      exact ih
    have hopen : encode "[" = [0x5B] := by decide
    have hcomma : encode "," = [0x2C] := by decide
    have hclose : encode "]" = [0x5D] := by decide
    rw [render, Text.encode_append, Text.encode_append, hopen, hclose, Text.encode_intercalate,
      hcomma, toTree, Tree.tokens]
    exact spelled_bracketed .openArray .closeArray rfl rfl hpieces
  | object members ih =>
    have hpieces : List.Forall₂ Spelled (memberTokens (memberTrees members))
        ((renderMembers members).map encode) := by
      rw [memberTokens_eq_map, memberTrees_eq_map, renderMembers_eq_map, List.map_map, List.map_map,
        List.forall₂_map_left_iff, List.forall₂_map_right_iff, List.forall₂_same]
      intro m hm
      have hcolon : encode ":" = [0x3A] := by decide
      have hname := isLexeme_renderText m.1
      rw [Function.comp, Function.comp, Text.encode_append, Text.encode_append, hcolon,
        List.append_assoc]
      exact .cons hname (Token.endsBefore rfl _) (.cons .colon (Token.endsBefore rfl _) (ih m hm))
    have hopen : encode "\x7b" = [0x7B] := by decide
    have hcomma : encode "," = [0x2C] := by decide
    have hclose : encode "\x7d" = [0x7D] := by decide
    rw [render, Text.encode_append, Text.encode_append, hopen, hclose, Text.encode_intercalate,
      hcomma, toTree, Tree.tokens]
    exact spelled_bracketed .openObject .closeObject rfl rfl hpieces

/-- What is written for a value is a text of the tree of the value. -/
theorem Value.isText_render (v : Value) : IsText v.toTree (encode v.render) :=
  ⟨v.isWhole_toTree, v.spelled_render⟩

end ContainerAudit.Json
