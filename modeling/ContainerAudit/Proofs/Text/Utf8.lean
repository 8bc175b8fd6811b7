import ContainerAudit.Text.Utf8

/-!
# The bytes of a character

A text is written character by character, and a character below 128 as the byte of its number.  All
bytes of any other character are 128 and more, so a byte below 128 in a written text is always a
character of its own.

## Key results

- `encode_eq_flatMap`: the bytes of a text, character by character
- `eq_of_mem_utf8EncodeChar`: what a byte below 128 stands for
-/

namespace ContainerAudit.Text

/-- The bytes of a text are those of its characters. -/
theorem encode_eq_flatMap (s : String) : encode s = s.toList.flatMap String.utf8EncodeChar := by
  rw [encode, String.toUTF8_eq_toByteArray, ← String.utf8Encode_toList, List.utf8Encode]
  simp

theorem encode_ofList (cs : List Char) :
    encode (String.ofList cs) = cs.flatMap String.utf8EncodeChar := by
  rw [encode_eq_flatMap, String.toList_ofList]

/-- The bytes of joined texts are the joined bytes. -/
theorem encode_intercalate (separator : String) (texts : List String) :
    encode (separator.intercalate texts) = (encode separator).intercalate (texts.map encode) := by
  induction texts with
  | nil => rfl
  | cons first rest ih =>
    cases rest with
    | nil => simp
    | cons second rest =>
      rw [String.intercalate_cons_cons, encode_append, encode_append, ih]
      exact List.intercalate_cons_cons.symm

/-- A byte below 128 is the only one of its character. -/
theorem eq_of_mem_utf8EncodeChar {c : Char} {b : UInt8} (hb : b ∈ String.utf8EncodeChar c)
    (hlt : b < 0x80) : c.toNat = b.toNat := by
  have hlt' : b.toNat < 128 := hlt
  have hc : c.val.toNat = c.toNat := rfl
  unfold String.utf8EncodeChar at hb
  simp only [hc] at hb
  -- A character of one byte is that byte; the bytes of longer ones are offset by at least 128.
  split at hb
  · obtain rfl := List.mem_singleton.mp hb
    rw [UInt8.toNat_ofNat']
    omega
  · exfalso
    split at hb
    · simp only [List.mem_cons, List.not_mem_nil, or_false] at hb
      rcases hb with rfl | rfl <;> rw [UInt8.toNat_ofNat'] at hlt' <;> omega
    · split at hb
      · simp only [List.mem_cons, List.not_mem_nil, or_false] at hb
        rcases hb with rfl | rfl | rfl <;> rw [UInt8.toNat_ofNat'] at hlt' <;> omega
      · simp only [List.mem_cons, List.not_mem_nil, or_false] at hb
        rcases hb with rfl | rfl | rfl | rfl <;> rw [UInt8.toNat_ofNat'] at hlt' <;> omega

/-- The byte of an ASCII character stands only in texts that hold the character. -/
theorem not_mem_encode {s : String} {c : Char} {b : UInt8} (hb : b < 0x80)
    (hc : c.toNat = b.toNat) (h : c ∉ s.toList) : b ∉ encode s := by
  rw [encode_eq_flatMap, List.mem_flatMap]
  rintro ⟨other, hother, hmem⟩
  have heq : other = c := by
    rw [← Char.ofNat_toNat other, eq_of_mem_utf8EncodeChar hmem hb, ← hc, Char.ofNat_toNat]
  exact h (heq ▸ hother)

theorem zero_not_mem_encode {s : String} (h : '\x00' ∉ s.toList) : 0 ∉ encode s :=
  not_mem_encode (by decide) (by decide) h

theorem encode_eq_nil_iff {s : String} : encode s = [] ↔ s = "" := by
  constructor
  · intro h
    have hdecode := decode?_encode s
    rw [h] at hdecode
    exact (Option.some.inj hdecode).symm
  · rintro rfl
    rfl

end ContainerAudit.Text
