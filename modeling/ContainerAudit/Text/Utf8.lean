/-!
# Bytes as text

The kernel hands over bytes.  `decode?` reads bytes that are UTF-8, `decodeLossy` reads any
bytes: what is not UTF-8 shows as U+FFFD, one for each maximal run of bytes that begins a
character without finishing it.  Main statements: bytes written from a text read back as that
text, by both (`decode?_encode`, `decodeLossy_encode`), and `decode?` reads no other bytes
(`encode_of_decode?`).
-/

namespace ContainerAudit.Text

/-- A sequence of bytes, such as a path name or the contents of a file. -/
abbrev Bytes := List UInt8

/-- The UTF-8 bytes of a text. -/
def encode (s : String) : Bytes := s.toUTF8.data.toList

/-- The text whose UTF-8 bytes these are. -/
def decode? (bytes : Bytes) : Option String := String.fromUTF8? ⟨bytes.toArray⟩

/-- How many bytes follow a first byte, and the range of the byte next to it. -/
def followers (first : UInt8) : Option (Nat × UInt8 × UInt8) :=
  if 0xC2 ≤ first && first ≤ 0xDF then some (1, 0x80, 0xBF)
  else if first == 0xE0 then some (2, 0xA0, 0xBF)
  else if first == 0xED then some (2, 0x80, 0x9F)
  else if 0xE1 ≤ first && first ≤ 0xEF then some (2, 0x80, 0xBF)
  else if first == 0xF0 then some (3, 0x90, 0xBF)
  else if 0xF1 ≤ first && first ≤ 0xF3 then some (3, 0x80, 0xBF)
  else if first == 0xF4 then some (3, 0x80, 0x8F)
  else none

/-- The bytes that continue a character: at most `owed`, the first between `low` and `high`,
    the others between `0x80` and `0xBF`. -/
def continuation : (owed : Nat) → (low high : UInt8) → Bytes → Bytes
  | 0, _, _, _ => []
  | _ + 1, _, _, [] => []
  | owed + 1, low, high, b :: rest =>
    if low ≤ b && b ≤ high then b :: continuation owed 0x80 0xBF rest else []

/-- The code point of a first byte that `owed` continuation bytes follow. -/
def codePoint (first : UInt8) (owed : Nat) (tail : Bytes) : Nat :=
  tail.foldl (fun n b => n * 64 + b.toNat % 64) (first.toNat % (0x40 >>> owed))

/-- The characters that bytes hold, with the maximal runs of bytes that are no character. -/
def pieces : Bytes → List (Except Bytes Char)
  | [] => []
  | b :: rest =>
    if b < 0x80 then .ok (Char.ofNat b.toNat) :: pieces rest
    else match followers b with
      | none => .error [b] :: pieces rest
      | some (owed, low, high) =>
        let tail := continuation owed low high rest
        let piece :=
          if tail.length = owed then .ok (Char.ofNat (codePoint b owed tail))
          else .error (b :: tail)
        piece :: pieces (rest.drop tail.length)
termination_by bytes => bytes.length
decreasing_by all_goals simp; try omega

/-- The character a piece shows as. -/
def shownAs : Except Bytes Char → Char
  | .ok c => c
  | .error _ => '\uFFFD'

/-- The text that any bytes show as. -/
def decodeLossy (bytes : Bytes) : String :=
  (decode? bytes).getD (String.ofList ((pieces bytes).map shownAs))

/-- A text is read back from its bytes. -/
theorem decode?_encode (s : String) : decode? (encode s) = some s := by
  have hb : (⟨(encode s).toArray⟩ : ByteArray) = s.toByteArray := by simp [encode]
  rw [decode?, hb, String.fromUTF8?, dif_pos s.isValidUTF8]
  rfl

/-- Bytes that are read as a text are those of the text. -/
theorem encode_of_decode? {bytes : Bytes} {s : String} (h : decode? bytes = some s) :
    encode s = bytes := by
  unfold decode? String.fromUTF8? at h
  split at h
  · cases h
    rfl
  · cases h

theorem encode_append (s t : String) : encode (s ++ t) = encode s ++ encode t := by
  simp [encode]

theorem decodeLossy_encode (s : String) : decodeLossy (encode s) = s := by
  simp [decodeLossy, decode?_encode]

end ContainerAudit.Text
