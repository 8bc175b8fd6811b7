import ContainerAudit.Live.Mount
import ContainerAudit.Proofs.Text.Utf8
import ContainerAudit.Proofs.Text.Word
import Mathlib.Data.Finset.Insert

/-!
# The mount table as the kernel writes it

The kernel writes a row for each mount: words with a space between each two and a line feed at the
end.  A byte that must not stand in a word is written as a backslash and three octal digits, and so
is the backslash.  Whatever other bytes are written so, and whatever else stands in a row, the
mounts are read back as they are.

## Key results

- `unescape_escape`: the bytes of a text come back from what is written for them
- `parseLine_of_words`: the words of a row that make up its mount
- `parse_cons`: one row more adds its mount to the table
- `parse_written`: a written table is read back
-/

namespace ContainerAudit

open Text (Bytes encode decode? IsWord)

/-- A row of the mount table: a mount and what else the kernel writes about it. -/
structure MountRow where
  id : String
  parent : String
  device : String
  root : String
  mount : LiveMount
  options : String
  /-- The optional words before the dash. -/
  tags : List String
  superOptions : String

namespace MountTable

/-! ## Escapes -/

/-- The byte of an octal digit. -/
def octalDigit (n : Nat) : UInt8 := UInt8.ofNat (0x30 + n)

/-- What the kernel writes for a byte: a backslash and the octal digits of an escaped one, and every
    other one as it is. -/
def escapeByte (escaped : Finset UInt8) (b : UInt8) : Bytes :=
  if b ∈ escaped then
    [0x5C, octalDigit (b.toNat / 64), octalDigit (b.toNat / 8 % 8), octalDigit (b.toNat % 8)]
  else [b]

/-- What the kernel writes for a text. -/
def escape (escaped : Finset UInt8) (text : String) : Bytes :=
  (encode text).flatMap (escapeByte escaped)

/-- Octal digits follow each other from that of zero on. -/
private theorem toNat_octalDigit {n : Nat} (h : n < 8) : (octalDigit n).toNat = 0x30 + n := by
  rw [octalDigit, UInt8.toNat_ofNat']
  omega

/-- The byte of an octal digit is recognised as one. -/
private theorem isOctalDigit_octalDigit {n : Nat} (h : n < 8) :
    isOctalDigit (octalDigit n) = true := by
  have hval := toNat_octalDigit h
  simp only [isOctalDigit, Bool.and_eq_true, decide_eq_true_eq, UInt8.le_iff_toNat_le, hval]
  show 0x30 ≤ 0x30 + n ∧ 0x30 + n ≤ 0x37
  omega

/-- Three digits, of which the first is at most three, stand for their value. -/
private theorem octalByte?_octalDigit {a b c : Nat} (ha : a < 4) (hb : b < 8) (hc : c < 8) :
    octalByte? (octalDigit a) (octalDigit b) (octalDigit c) =
      some (UInt8.ofNat (a * 64 + b * 8 + c)) := by
  have ha' : a < 8 := by omega
  have hfirst : octalDigit a ≤ 0x33 := by
    rw [UInt8.le_iff_toNat_le, toNat_octalDigit ha']
    show 0x30 + a ≤ 0x33
    omega
  simp [octalByte?, hfirst, isOctalDigit_octalDigit ha', isOctalDigit_octalDigit hb,
    isOctalDigit_octalDigit hc, toNat_octalDigit ha', toNat_octalDigit hb, toNat_octalDigit hc]

/-- The three digits that are written for a byte stand for it. -/
private theorem octalByte?_digits (b : UInt8) :
    octalByte? (octalDigit (b.toNat / 64)) (octalDigit (b.toNat / 8 % 8))
      (octalDigit (b.toNat % 8)) = some b := by
  have hlt := b.toNat_lt
  rw [octalByte?_octalDigit (by omega) (by omega) (by omega)]
  have hval : b.toNat / 64 * 64 + b.toNat / 8 % 8 * 8 + b.toNat % 8 = b.toNat := by omega
  rw [hval, UInt8.ofNat_toNat]

/-- A byte other than the backslash stays as it is. -/
private theorem unescape_cons {b : UInt8} (h : b ≠ 0x5C) (rest : Bytes) :
    unescape (b :: rest) = b :: unescape rest := by
  conv_lhs => unfold unescape
  split <;> simp_all

section Escaped

variable {escaped : Finset UInt8}

/-- What is written for a byte is undone before anything that follows. -/
private theorem unescape_escapeByte (h : 0x5C ∈ escaped) (b : UInt8) (rest : Bytes) :
    unescape (escapeByte escaped b ++ rest) = b :: unescape rest := by
  unfold escapeByte
  split
  · simp only [List.cons_append, List.nil_append]
    rw [unescape, octalByte?_digits]
  · -- The backslash is escaped, so this byte begins no escape.
    rename_i hb
    have hne : b ≠ 0x5C := fun heq => hb (heq ▸ h)
    rw [List.singleton_append, unescape_cons hne]

/-- Bytes come back from what is written for them, one after another. -/
private theorem unescape_flatMap_escapeByte (h : 0x5C ∈ escaped) (bytes : Bytes) :
    unescape (bytes.flatMap (escapeByte escaped)) = bytes := by
  induction bytes with
  | nil => rfl
  | cons b rest ih => rw [List.flatMap_cons, unescape_escapeByte h, ih]

/-- A word is read as the text that it was written for. -/
theorem field_of_decode?_escape (h : 0x5C ∈ escaped) {text word : String}
    (hword : decode? (escape escaped text) = some word) : field word.toList = text := by
  have hbytes : encode word = escape escaped text := Text.encode_of_decode? hword
  rw [field, String.ofList_toList, hbytes, escape, unescape_flatMap_escapeByte h]
  exact Text.decodeLossy_encode text

end Escaped

/-! ## Rows -/

/-- A row is the mount of its fifth word and of the two words after the dash. -/
theorem parseLine_of_words {line id parent device root mountpoint options fstype source : List Char}
    {tags after : List (List Char)} (htags : ['-'] ∉ tags)
    (hwords : Text.words line =
      [id, parent, device, root, mountpoint, options] ++ tags ++
        ['-'] :: fstype :: source :: after) :
    parseLine line = some ⟨field mountpoint, field fstype, field source⟩ := by
  have hlength : ¬(Text.words line).length < 9 := by
    simp only [hwords, List.length_append, List.length_cons]
    omega
  have hfifth : (Text.words line)[4]? = some mountpoint := by
    rw [hwords]
    rfl
  -- No tag is a dash, so the first one after six words is the one before the type.
  have hdash : ((Text.words line).drop 6).dropWhile (· ≠ ['-']) =
      ['-'] :: fstype :: source :: after := by
    have hdrop : (Text.words line).drop 6 = tags ++ ['-'] :: fstype :: source :: after := by
      rw [hwords]
      rfl
    rw [hdrop, List.dropWhile_append_of_pos]
    · rfl
    · intro tag htag
      have hne : tag ≠ ['-'] := fun heq => htags (heq ▸ htag)
      simp [hne]
  simp only [parseLine, hfifth, hdash, if_neg hlength]

end MountTable

namespace MountRow

variable {escaped : Finset UInt8}

/-- The words of a row. -/
def fields (escaped : Finset UInt8) (row : MountRow) : List Bytes :=
  [encode row.id, encode row.parent, encode row.device, encode row.root,
      MountTable.escape escaped row.mount.mountpoint, encode row.options] ++
    row.tags.map encode ++
    [encode "-", MountTable.escape escaped row.mount.fstype,
      MountTable.escape escaped row.mount.source, encode row.superOptions]

/-- A row as the kernel writes it. -/
def line (escaped : Finset UInt8) (row : MountRow) : Bytes :=
  [0x20].intercalate (row.fields escaped) ++ [0x0A]

/-- A row that the kernel can write. -/
structure IsWritable (escaped : Finset UInt8) (row : MountRow) : Prop where
  /-- What stands in the row besides the mount are words. -/
  words : ∀ text ∈ [row.id, row.parent, row.device, row.root, row.options, row.superOptions],
    IsWord text.toList
  /-- The optional words are no dashes, so that the dash after them is the first one. -/
  tags : ∀ tag ∈ row.tags, IsWord tag.toList ∧ tag ≠ "-"
  /-- What is written for the mount is text, and words. -/
  mount : ∀ text ∈ [row.mount.mountpoint, row.mount.fstype, row.mount.source],
    ∃ word ∈ decode? (MountTable.escape escaped text), IsWord word.toList

instance (row : MountRow) : Decidable (row.IsWritable escaped) :=
  decidable_of_iff (_ ∧ _ ∧ _)
    ⟨fun ⟨words, tags, mount⟩ => ⟨words, tags, mount⟩, fun h => ⟨h.words, h.tags, h.mount⟩⟩

/-- A row is written as a text without a line break in which the mount is read. -/
private theorem IsWritable.exists_text {row : MountRow} (hescaped : 0x5C ∈ escaped)
    (h : row.IsWritable escaped) :
    ∃ text : String, encode text = [0x20].intercalate (row.fields escaped) ∧
      '\n' ∉ text.toList ∧ '\r' ∉ text.toList ∧
      MountTable.parseLine text.toList = some row.mount := by
  obtain ⟨mountpoint, hmountpoint, hword⟩ := h.mount row.mount.mountpoint (by simp)
  obtain ⟨fstype, hfstype, hword'⟩ := h.mount row.mount.fstype (by simp)
  obtain ⟨source, hsource, hword''⟩ := h.mount row.mount.source (by simp)
  -- The words of the row as texts.
  let texts : List String :=
    [row.id, row.parent, row.device, row.root, mountpoint, row.options] ++ row.tags ++
      ["-", fstype, source, row.superOptions]
  have hwords : ∀ piece ∈ texts.map String.toList, IsWord piece := by
    obtain ⟨hid, hparent, hdevice, hroot, hoptions, hsuper⟩ :
        IsWord row.id.toList ∧ IsWord row.parent.toList ∧ IsWord row.device.toList ∧
          IsWord row.root.toList ∧ IsWord row.options.toList ∧
          IsWord row.superOptions.toList := by
      simpa using h.words
    have hdash : IsWord "-".toList := by decide
    refine List.forall_mem_map.mpr (List.forall_mem_append.mpr ⟨List.forall_mem_append.mpr
      ⟨?_, fun tag htag => (h.tags tag htag).1⟩, ?_⟩)
    · simp [hid, hparent, hdevice, hroot, hword, hoptions]
    · simpa [hword', hword'', hsuper] using hdash
  have htoList : (" ".intercalate texts).toList = [' '].intercalate (texts.map String.toList) :=
    String.toList_intercalate
  refine ⟨" ".intercalate texts, ?_, ?_, ?_, ?_⟩
  · have hspace : Text.encode " " = [0x20] := by decide
    rw [Text.encode_intercalate, hspace]
    simp [texts, fields, Text.encode_of_decode? hmountpoint, Text.encode_of_decode? hfstype,
      Text.encode_of_decode? hsource]
  · rw [htoList]
    exact Text.not_mem_intercalate hwords (by decide) (by decide)
  · rw [htoList]
    exact Text.not_mem_intercalate hwords (by decide) (by decide)
  · have hsplit := Text.words_intercalate hwords
    rw [← htoList] at hsplit
    have htags : ['-'] ∉ row.tags.map String.toList := by
      intro hmem
      obtain ⟨tag, htag, heq⟩ := List.mem_map.mp hmem
      exact (h.tags tag htag).2 (String.toList_inj.mp heq)
    rw [MountTable.parseLine_of_words htags (by simpa [texts] using hsplit),
      MountTable.field_of_decode?_escape hescaped hmountpoint,
      MountTable.field_of_decode?_escape hescaped hfstype,
      MountTable.field_of_decode?_escape hescaped hsource]

end MountRow

/-! ## Tables -/

namespace MountTable

/-- A table as the kernel writes it. -/
def written (escaped : Finset UInt8) (rows : List MountRow) : Bytes :=
  rows.flatMap (MountRow.line escaped)

/-- One row more adds its mount. -/
theorem parse_cons {text : String} {mount : LiveMount} (hline : '\n' ∉ text.toList)
    (hreturn : '\r' ∉ text.toList) (hmount : parseLine text.toList = some mount) (rest : String) :
    parse (text ++ "\n" ++ rest) = mount :: parse rest := by
  have htoList : (text ++ "\n" ++ rest).toList = text.toList ++ '\n' :: rest.toList := by simp
  rw [parse, htoList, Text.lines_cons hline, Text.withoutReturn_of_not_mem hreturn,
    List.filterMap_cons_some hmount]
  rfl

/-- A table that the kernel wrote is text, and the mounts that are read in it are those of its rows,
    in their order. -/
theorem parse_written {escaped : Finset UInt8} {rows : List MountRow} (hescaped : 0x5C ∈ escaped)
    (hrows : ∀ row ∈ rows, row.IsWritable escaped) :
    ∃ text, decode? (written escaped rows) = some text ∧
      parse text = rows.map (·.mount) := by
  -- The text is built from the rows, and reading its bytes gives it back.
  suffices ∃ text, encode text = written escaped rows ∧ parse text = rows.map (·.mount) by
    obtain ⟨text, hbytes, hparse⟩ := this
    exact ⟨text, by rw [← hbytes, Text.decode?_encode], hparse⟩
  induction rows with
  | nil => exact ⟨"", rfl, rfl⟩
  | cons row rest ih =>
    obtain ⟨after, hafter, hparse⟩ := ih fun row' hrow' => hrows row' (List.mem_cons_of_mem _ hrow')
    obtain ⟨text, htext, hline, hreturn, hmount⟩ :=
      (hrows row List.mem_cons_self).exists_text hescaped
    refine ⟨text ++ "\n" ++ after, ?_, ?_⟩
    · rw [Text.encode_append, Text.encode_append, htext, hafter]
      rfl
    · rw [parse_cons hline hreturn hmount, hparse]
      rfl

/-- A table with blanks, a backslash and a digit that are escaped, and with dashes before and after
    the one that counts. -/
theorem parse_written_blanks :
    let escaped : Finset UInt8 := {0x09, 0x0A, 0x20, 0x30, 0x5C}
    let rows : List MountRow := [
      ⟨"36", "-", "0:23", "-", ⟨"/mnt/with space", "-", "my\\040\tsrc"⟩, "-", [], "rw"⟩,
      ⟨"40", "22", "0:35", "/", ⟨"/été\n", "tmpfs", "shm"⟩, "rw", ["shared:4", "master:1"], "-"⟩]
    (0x5C ∈ escaped ∧ ∀ row ∈ rows, row.IsWritable escaped) ∧
      ∃ text, decode? (written escaped rows) = some text ∧
        parse text = [⟨"/mnt/with space", "-", "my\\040\tsrc"⟩, ⟨"/été\n", "tmpfs", "shm"⟩] := by
  intro escaped rows
  have hescaped : 0x5C ∈ escaped := by decide
  have hrows : ∀ row ∈ rows, row.IsWritable escaped := by decide +kernel
  exact ⟨⟨hescaped, hrows⟩, parse_written hescaped hrows⟩

end MountTable

end ContainerAudit
