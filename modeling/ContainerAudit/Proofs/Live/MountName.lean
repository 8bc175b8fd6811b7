import ContainerAudit.Proofs.Live.Mount

/-!
# Names in the mount table, character by character

In the names of a mount the kernel escapes the backslash and three blanks: the space, the tab and
the line feed.  The table is read as words with any blanks between them, though, and there are 22
others.  A name that holds one of those is read as several words, so the name that is read is only a
part of it, or the words behind it are taken for what they are not.

A name is written piece by piece: between its stray blanks, the ones that are not escaped, stand the
spellings of pieces that hold none (`exists_of_mem_words_spell`).  So nothing that is read in such a
row holds a stray blank, and a name that does is not read.

## Key results

- `encode_spell`, `field_spell`: how a name is written, character by character, and read as one word
- `isClean_spell`: nothing that is read in a name or a part of one holds a stray blank
- `parse_kernelLine`: when the mount of a row is read
-/

namespace ContainerAudit

open Text (Bytes IsWord decode? encode isBlank words words_append_cons)

namespace MountTable

/-- The characters that the kernel escapes in every name. -/
def nameEscapes : List Char := [' ', '\t', '\n', '\\']

/-- The characters that it escapes in a type and in a source. -/
def sourceEscapes : List Char := '#' :: nameEscapes

/-- The bytes of ASCII characters. -/
def bytesOf (chars : List Char) : Finset UInt8 :=
  (chars.map fun c => UInt8.ofNat c.toNat).toFinset

/-- What the characters that are escaped in a name have in common. -/
structure IsEscapes (chars : List Char) : Prop where
  /-- Three octal digits are enough for each of them. -/
  ascii : ∀ c ∈ chars, c.toNat < 0x80
  /-- No backslash stands for itself. -/
  backslash : '\\' ∈ chars
  /-- The blanks among them are those that are escaped in every name. -/
  blanks : ∀ c, isBlank c = true → (c ∈ chars ↔ c ∈ nameEscapes)

/-- The characters that are escaped in every name are as they should be. -/
private theorem isEscapes_name : IsEscapes nameEscapes :=
  ⟨by simp [nameEscapes], by decide, fun _ _ => Iff.rfl⟩

/-- So are those that are escaped in a source. -/
private theorem isEscapes_source : IsEscapes sourceEscapes := by
  refine ⟨by simp [sourceEscapes, nameEscapes], by decide, fun c hc => ?_⟩
  -- The number sign is no blank.
  have hne : c ≠ '#' := by
    rintro rfl
    revert hc
    decide
  simp [sourceEscapes, hne]

/-- A blank that is not escaped. -/
def isStray (c : Char) : Bool := isBlank c && c ∉ nameEscapes

/-- A stray blank is a blank that stands for itself. -/
private theorem isStray_eq_true_iff {c : Char} :
    isStray c = true ↔ isBlank c = true ∧ c ∉ nameEscapes := by
  simp [isStray]

/-- What is not stray is no blank, or is escaped. -/
private theorem isStray_eq_false_iff {c : Char} :
    isStray c = false ↔ (isBlank c = true → c ∈ nameEscapes) := by
  simp [isStray]

/-- The character of an octal digit. -/
def octalChar (n : Nat) : Char := Char.ofNat (0x30 + n)

/-- What is written for a character. -/
def spellChar (chars : List Char) (c : Char) : List Char :=
  if c ∈ chars then
    ['\\', octalChar (c.toNat / 64), octalChar (c.toNat / 8 % 8), octalChar (c.toNat % 8)]
  else [c]

/-- What is written for a text. -/
def spell (chars text : List Char) : List Char := text.flatMap (spellChar chars)

/-- The character of an octal digit is one byte, that of the digit. -/
private theorem encode_octalChar :
    ∀ n < 8, String.utf8EncodeChar (octalChar n) = [octalDigit n] := by
  decide

private theorem isBlank_octalChar : ∀ n < 8, isBlank (octalChar n) = false := by
  decide

section Spelling

variable {chars : List Char}

/-- A byte that is escaped is the number of a character that is. -/
private theorem IsEscapes.exists_of_mem_bytesOf (hchars : IsEscapes chars) {b : UInt8}
    (h : b ∈ bytesOf chars) : ∃ c ∈ chars, c.toNat = b.toNat := by
  rw [bytesOf, List.mem_toFinset, List.mem_map] at h
  obtain ⟨c, hc, rfl⟩ := h
  have hlt := hchars.ascii c hc
  refine ⟨c, hc, ?_⟩
  rw [UInt8.toNat_ofNat']
  omega

/-- A character is escaped exactly if the byte of its number is. -/
private theorem IsEscapes.mem_bytesOf_iff (hchars : IsEscapes chars) {c : Char} {b : UInt8}
    (h : c.toNat = b.toNat) : b ∈ bytesOf chars ↔ c ∈ chars := by
  constructor
  · intro hb
    obtain ⟨other, hother, heq⟩ := hchars.exists_of_mem_bytesOf hb
    rwa [← Char.ofNat_toNat c, h, ← heq, Char.ofNat_toNat]
  · intro hc
    rw [bytesOf, List.mem_toFinset, List.mem_map]
    exact ⟨c, hc, by rw [h, UInt8.ofNat_toNat]⟩

/-- The bytes of what is written for a character are what is written for its bytes. -/
private theorem encode_spellChar (hchars : IsEscapes chars) (c : Char) :
    (spellChar chars c).flatMap String.utf8EncodeChar =
      (String.utf8EncodeChar c).flatMap (escapeByte (bytesOf chars)) := by
  by_cases hc : c ∈ chars
  · -- The character is a single byte of the same number, so the digits are the same.
    have hlt := hchars.ascii c hc
    have hsingle : String.utf8EncodeChar c = [UInt8.ofNat c.toNat] := by
      unfold String.utf8EncodeChar
      exact if_pos (Nat.le_of_lt_succ hlt)
    have hval : (UInt8.ofNat c.toNat).toNat = c.toNat := by
      rw [UInt8.toNat_ofNat']
      omega
    have hmem : UInt8.ofNat c.toNat ∈ bytesOf chars := (hchars.mem_bytesOf_iff hval.symm).mpr hc
    rw [spellChar, if_pos hc, hsingle, List.flatMap_singleton, escapeByte, if_pos hmem, hval]
    simp only [List.flatMap_cons, List.flatMap_nil, List.append_nil,
      encode_octalChar (c.toNat / 64) (by omega), encode_octalChar (c.toNat / 8 % 8) (by omega),
      encode_octalChar (c.toNat % 8) (by omega)]
    rfl
  · -- A byte below 128 stands for itself, so none of the character's bytes is escaped.
    have hkept : ∀ b ∈ String.utf8EncodeChar c, escapeByte (bytesOf chars) b = [b] := by
      intro b hb
      apply if_neg
      intro hmem
      obtain ⟨other, hother, heq⟩ := hchars.exists_of_mem_bytesOf hmem
      have hlt : b.toNat < 0x80 := heq ▸ hchars.ascii other hother
      exact hc ((hchars.mem_bytesOf_iff (Text.eq_of_mem_utf8EncodeChar hb hlt)).mp hmem)
    rw [spellChar, if_neg hc, List.flatMap_congr hkept]
    simp

/-- The spelling of a text is what the kernel writes for its bytes. -/
theorem encode_spell (hchars : IsEscapes chars) (text : List Char) :
    encode (String.ofList (spell chars text)) = escape (bytesOf chars) (String.ofList text) := by
  rw [escape, Text.encode_ofList, Text.encode_ofList, spell, List.flatMap_assoc, List.flatMap_assoc]
  exact List.flatMap_congr fun c _ => encode_spellChar hchars c

/-- What is written for a text is read as the text if it is read as one word. -/
theorem field_spell (hchars : IsEscapes chars) (text : List Char) :
    field (spell chars text) = String.ofList text := by
  have hmem : 0x5C ∈ bytesOf chars := (hchars.mem_bytesOf_iff (by decide)).mpr hchars.backslash
  have hdecode : decode? (escape (bytesOf chars) (String.ofList text)) =
      some (String.ofList (spell chars text)) := by
    rw [← encode_spell hchars, Text.decode?_encode]
  have hfield := field_of_decode?_escape hmem hdecode
  rwa [String.toList_ofList] at hfield

/-- Characters that are not escaped are written as they are. -/
private theorem spell_eq_self {text : List Char} (h : ∀ c ∈ text, c ∉ chars) :
    spell chars text = text := by
  have hkept : ∀ c ∈ text, spellChar chars c = [c] := fun c hc => if_neg (h c hc)
  rw [spell, List.flatMap_congr hkept]
  exact List.flatMap_singleton' text

/-- The blanks in what is written for a text are its stray blanks. -/
private theorem mem_of_mem_spell (hchars : IsEscapes chars) {text : List Char} {c : Char}
    (h : c ∈ spell chars text) (hblank : isBlank c = true) : c ∈ text ∧ isStray c = true := by
  obtain ⟨other, hother, hmem⟩ := List.mem_flatMap.mp h
  rw [spellChar] at hmem
  split at hmem
  · -- An escape holds no blanks.
    rename_i hescaped
    have hlt := hchars.ascii other hescaped
    have hfalse : isBlank c = false := by
      simp only [List.mem_cons, List.not_mem_nil, or_false] at hmem
      rcases hmem with rfl | rfl | rfl | rfl
      · decide
      · exact isBlank_octalChar _ (by omega)
      · exact isBlank_octalChar _ (by omega)
      · exact isBlank_octalChar _ (by omega)
    rw [hfalse] at hblank
    cases hblank
  · -- A character that stands for itself is a blank that is not escaped.
    rename_i hkept
    obtain rfl := List.mem_singleton.mp hmem
    have hnot : c ∉ nameEscapes := fun hc => hkept ((hchars.blanks c hblank).mpr hc)
    exact ⟨hother, isStray_eq_true_iff.mpr ⟨hblank, hnot⟩⟩

/-- A name is written on one line. -/
private theorem feed_not_mem_spell (hchars : IsEscapes chars) (text : List Char) :
    '\n' ∉ spell chars text := by
  intro hmem
  have hstray := (mem_of_mem_spell hchars hmem (by decide)).2
  revert hstray
  decide

/-! ## Pieces of a name -/

/-- A name without stray blanks is written as one word. -/
private theorem isWord_spell (hchars : IsEscapes chars) {text : List Char} (hne : text ≠ [])
    (h : ∀ c ∈ text, isStray c = false) : IsWord (spell chars text) := by
  refine ⟨?_, fun c hc => ?_⟩
  · obtain ⟨first, rest, rfl⟩ := List.exists_cons_of_ne_nil hne
    rw [spell, List.flatMap_cons, spellChar]
    split <;> simp
  · by_contra hblank
    rw [Bool.not_eq_false] at hblank
    obtain ⟨hmem, hstray⟩ := mem_of_mem_spell hchars hc hblank
    rw [h c hmem] at hstray
    cases hstray

/-- Each word in what is written for a name is the spelling of a piece without stray blanks. -/
theorem exists_of_mem_words_spell (hchars : IsEscapes chars) {text word : List Char}
    (h : word ∈ words (spell chars text)) :
    ∃ piece, word = spell chars piece ∧ ∀ c ∈ piece, isStray c = false := by
  -- A piece without stray blanks gives one word, and none if it is empty.
  have hpiece {piece : List Char} (hkept : ∀ c ∈ piece, isStray c = false)
      (hword : word ∈ words (spell chars piece)) : word = spell chars piece := by
    by_cases hne : piece = []
    · subst hne
      cases hword
    · rw [Text.words_of_isWord (isWord_spell hchars hne hkept)] at hword
      exact List.mem_singleton.mp hword
  -- The induction is on the length, since what stands behind a stray blank is shorter.
  induction hlength : text.length using Nat.strongRecOn generalizing text with
  | _ length ih =>
    subst hlength
    -- The piece in front of the first stray blank, and what stands behind the blank.
    obtain ⟨front, rest, rfl, hfront, hrest⟩ := List.exists_append_of_head? (!isStray ·) text
    simp only [Bool.not_eq_true', Bool.not_eq_false'] at hfront hrest
    cases rest with
    | nil =>
      rw [List.append_nil] at h
      exact ⟨front, hpiece hfront h, hfront⟩
    | cons c rest =>
      obtain ⟨hblank, hescape⟩ := isStray_eq_true_iff.mp (hrest c rfl)
      have hnot : c ∉ chars := fun hc => hescape ((hchars.blanks c hblank).mp hc)
      have hspell : spell chars (front ++ c :: rest) =
          spell chars front ++ c :: spell chars rest := by
        simp [spell, spellChar, hnot]
      rw [hspell, words_append_cons hblank, List.mem_append] at h
      rcases h with h | h
      · exact ⟨front, hpiece hfront h, hfront⟩
      · exact ih rest.length (by simp; omega) h rfl

/-- Nothing that is read in a text holds a stray blank. -/
def IsClean (text : List Char) : Prop :=
  ∀ word ∈ words text, ∀ c ∈ (field word).toList, isStray c = false

/-- Nothing that is read in the spelling of a name holds a stray blank. -/
theorem isClean_spell (hchars : IsEscapes chars) (text : List Char) :
    IsClean (spell chars text) := by
  intro word hword
  obtain ⟨piece, rfl, hpiece⟩ := exists_of_mem_words_spell hchars hword
  rwa [field_spell hchars, String.toList_ofList]

/-- A word without a backslash is read as it is. -/
private theorem isClean_of_isWord {word : List Char} (hword : IsWord word)
    (hbackslash : '\\' ∉ word) :
    IsClean word := by
  -- It holds nothing that is escaped in a name, so it is its own spelling.
  have hkept : ∀ c ∈ word, c ∉ nameEscapes := by
    intro c hc hmem
    have hblank := hword.2 c hc
    simp only [nameEscapes, List.mem_cons, List.not_mem_nil, or_false] at hmem
    rcases hmem with rfl | rfl | rfl | rfl
    · cases hblank
    · cases hblank
    · cases hblank
    · exact hbackslash hc
  rw [← spell_eq_self hkept]
  exact isClean_spell isEscapes_name word

/-- Nor does anything that is read in several such texts with spaces between them. -/
private theorem isClean_intercalate {pieces : List (List Char)}
    (h : ∀ piece ∈ pieces, IsClean piece) :
    IsClean ([' '].intercalate pieces) := by
  intro word hword
  rw [Text.words_intercalate_eq_flatMap] at hword
  obtain ⟨piece, hpiece, hword⟩ := List.mem_flatMap.mp hword
  exact h piece hpiece word hword

end Spelling

/-! ## Lines -/

/-- A line is read as the mount on it. -/
private theorem parse_line {line : String} (hline : '\n' ∉ line.toList) :
    parse (line ++ "\n") = (parseLine line.toList).toList := by
  have htoList : (line ++ "\n").toList = line.toList ++ '\n' :: [] := by simp
  have hreturn : parseLine (Text.withoutReturn line.toList) = parseLine line.toList := by
    simp only [parseLine, Text.words_withoutReturn]
  rw [parse, htoList, Text.lines_cons hline, List.filterMap_cons, hreturn]
  cases parseLine line.toList <;> rfl

end MountTable

/-- The names of a mount. -/
def LiveMount.names (mount : LiveMount) : List String :=
  [mount.mountpoint, mount.fstype, mount.source]

namespace MountTable

/-- The names of a mount are what three words of its line are read as. -/
private theorem IsClean.not_isStray {line : List Char} (hline : IsClean line) {mount : LiveMount}
    (h : parseLine line = some mount) :
    ∀ name ∈ mount.names, ∀ c ∈ name.toList, isStray c = false := by
  rw [parseLine] at h
  split_ifs at h
  split at h
  · rename_i mountpoint dash fstype source rest hfifth hdash
    -- What stands behind the dash are words of the line, too.
    have hsuffix : ∀ word ∈ dash :: fstype :: source :: rest, word ∈ words line := by
      intro word hword
      rw [← hdash] at hword
      exact List.mem_of_mem_drop (List.dropWhile_subset _ hword)
    obtain rfl := Option.some.inj h
    simp only [LiveMount.names, List.forall_mem_cons, List.not_mem_nil, false_implies,
      implies_true, and_true]
    exact ⟨hline mountpoint (List.mem_of_getElem? hfifth), hline fstype (hsuffix _ (by simp)),
      hline source (hsuffix _ (by simp))⟩
  · cases h

end MountTable

/-! ## Rows -/

namespace MountRow

open MountTable

/-- What stands in a row besides the mount. -/
def others (row : MountRow) : List String :=
  [row.id, row.parent, row.device, row.root, row.options, row.superOptions] ++ row.tags

/-- A row in which nothing is missing. -/
structure IsFilled (row : MountRow) : Prop where
  /-- The mount has its names, of any characters. -/
  names : ∀ name ∈ row.mount.names, name ≠ ""
  /-- What stands around them are words. -/
  others : ∀ other ∈ row.others, IsWord other.toList
  /-- The dash after the optional words is the first one. -/
  tags : "-" ∉ row.tags

instance (row : MountRow) : Decidable row.IsFilled :=
  decidable_of_iff (_ ∧ _ ∧ _)
    ⟨fun ⟨names, others, tags⟩ => ⟨names, others, tags⟩, fun h => ⟨h.names, h.others, h.tags⟩⟩

/-- The words of a row, each name with its own escapes. -/
def kernelFields (row : MountRow) : List Bytes :=
  [encode row.id, encode row.parent, encode row.device, encode row.root,
      escape (bytesOf nameEscapes) row.mount.mountpoint, encode row.options] ++
    row.tags.map encode ++
    [encode "-", escape (bytesOf sourceEscapes) row.mount.fstype,
      escape (bytesOf sourceEscapes) row.mount.source, encode row.superOptions]

/-- A row as the kernel writes it. -/
def kernelLine (row : MountRow) : Bytes := [0x20].intercalate row.kernelFields ++ [0x0A]

/-- What is written in a row, as texts. -/
def texts (row : MountRow) : List String :=
  [row.id, row.parent, row.device, row.root,
      String.ofList (spell nameEscapes row.mount.mountpoint.toList), row.options] ++
    row.tags ++
    ["-", String.ofList (spell sourceEscapes row.mount.fstype.toList),
      String.ofList (spell sourceEscapes row.mount.source.toList), row.superOptions]

/-- The characters of a row without the line feed behind it. -/
def spelled (row : MountRow) : List Char := [' '].intercalate (row.texts.map String.toList)

/-- The bytes of a row are the text of its spelled words and a line feed. -/
private theorem decode?_kernelLine (row : MountRow) :
    decode? row.kernelLine = some (String.ofList row.spelled ++ "\n") := by
  have hspace : encode " " = [0x20] := by decide
  have hfeed : encode "\n" = [0x0A] := by decide
  have hfields : row.texts.map encode = row.kernelFields := by
    simp [texts, kernelFields, encode_spell isEscapes_name, encode_spell isEscapes_source]
  have htoList : (" ".intercalate row.texts).toList = row.spelled := String.toList_intercalate
  -- Texts are decoded from their bytes, so it is enough to compare those.
  have hbytes : encode (String.ofList row.spelled ++ "\n") = row.kernelLine := by
    rw [Text.encode_append, ← htoList, String.ofList_toList, Text.encode_intercalate, hspace, hfeed,
      hfields]
    rfl
  rw [← hbytes, Text.decode?_encode]

variable {row : MountRow}

/-- What is written in a row are the words around the mount, a dash and the names. -/
private theorem forall_texts {P : List Char → Prop} (hothers : ∀ other ∈ row.others, P other.toList)
    (hdash : P ['-'])
    (hnames : ∀ chars, IsEscapes chars → ∀ name ∈ row.mount.names, P (spell chars name.toList)) :
    ∀ piece ∈ row.texts.map String.toList, P piece := by
  have hmountpoint := hnames _ isEscapes_name row.mount.mountpoint (by simp [LiveMount.names])
  have hfstype := hnames _ isEscapes_source row.mount.fstype (by simp [LiveMount.names])
  have hsource := hnames _ isEscapes_source row.mount.source (by simp [LiveMount.names])
  have hdash' : P "-".toList := hdash
  simp only [others, List.forall_mem_append, List.forall_mem_cons, List.not_mem_nil, false_implies,
    implies_true, and_true] at hothers
  obtain ⟨⟨hid, hparent, hdevice, hroot, hoptions, hsuper⟩, htags⟩ := hothers
  simp only [texts, List.forall_mem_map, List.forall_mem_append, List.forall_mem_cons,
    List.not_mem_nil, false_implies, implies_true, and_true, String.toList_ofList]
  exact ⟨⟨⟨hid, hparent, hdevice, hroot, hmountpoint, hoptions⟩, htags⟩, hdash', hfstype, hsource,
    hsuper⟩

/-- A row is read as the mount on its line. -/
private theorem IsFilled.parse_spelled (hrow : row.IsFilled) :
    parse (String.ofList row.spelled ++ "\n") = (parseLine row.spelled).toList := by
  have hpieces : ∀ piece ∈ row.texts.map String.toList, '\n' ∉ piece := by
    apply forall_texts
    · -- A line feed is a blank, and words hold none.
      intro other hother hmem
      have hblank := (hrow.others other hother).2 '\n' hmem
      revert hblank
      decide
    · decide
    · exact fun chars hchars name _ => feed_not_mem_spell hchars name.toList
  have hline : '\n' ∉ (String.ofList row.spelled).toList := by
    rw [String.toList_ofList]
    intro hmem
    -- A line feed would stand in a piece, for between the pieces stand spaces.
    rcases List.mem_of_mem_intercalate hmem with hspace | ⟨piece, hpiece, hfeed⟩
    · cases List.mem_singleton.mp hspace
    · exact hpieces piece hpiece hfeed
  rw [parse_line hline, String.toList_ofList]

/-- A row whose names hold no stray blanks is read as its mount. -/
private theorem IsFilled.parseLine_spelled (hrow : row.IsFilled)
    (hnames : ∀ name ∈ row.mount.names, ∀ c ∈ name.toList, isStray c = false) :
    parseLine row.spelled = some row.mount := by
  -- Each piece of the row is one word, so the words of the line are the pieces.
  have hwords : words row.spelled = row.texts.map String.toList := by
    apply Text.words_intercalate
    apply forall_texts hrow.others (by decide)
    intro chars hchars name hname
    apply isWord_spell hchars
    · exact fun hnil => hrow.names name hname (String.toList_eq_nil_iff.mp hnil)
    · exact hnames name hname
  have htags : ['-'] ∉ row.tags.map String.toList := by
    intro hmem
    obtain ⟨tag, htag, heq⟩ := List.mem_map.mp hmem
    have htag' : tag = "-" := String.toList_inj.mp heq
    exact hrow.tags (htag' ▸ htag)
  rw [parseLine_of_words htags (by simpa [texts] using hwords), field_spell isEscapes_name,
    field_spell isEscapes_source, field_spell isEscapes_source]
  simp

/-- Nothing that is read in a row holds a stray blank, if it cannot come from around the names. -/
private theorem IsFilled.isClean_spelled (hrow : row.IsFilled)
    (hothers : ∀ other ∈ row.others, '\\' ∉ other.toList) : IsClean row.spelled := by
  apply isClean_intercalate
  apply forall_texts
  · exact fun other hother => isClean_of_isWord (hrow.others other hother) (hothers other hother)
  · exact isClean_of_isWord (by decide) (by decide)
  · exact fun chars hchars name _ => isClean_spell hchars name.toList

end MountRow

namespace MountTable

/-- The mount of a row is read back if every blank in its names is escaped, and, where no backslash
    stands around the names, in no other case. -/
theorem parse_kernelLine (row : MountRow) (hrow : row.IsFilled) :
    ∃ text, decode? row.kernelLine = some text ∧
      ((∀ name ∈ row.mount.names, ∀ c ∈ name.toList, isBlank c = true → c ∈ nameEscapes) →
        parse text = [row.mount]) ∧
      ((∀ other ∈ row.others, '\\' ∉ other.toList) → parse text = [row.mount] →
        ∀ name ∈ row.mount.names, ∀ c ∈ name.toList, isBlank c = true → c ∈ nameEscapes) := by
  refine ⟨_, row.decode?_kernelLine, ?_, ?_⟩
  · intro hnames
    have hmount := hrow.parseLine_spelled fun name hname c hc =>
      isStray_eq_false_iff.mpr (hnames name hname c hc)
    rw [hrow.parse_spelled, hmount]
    rfl
  · intro hothers h name hname c hc
    have hmount : parseLine row.spelled = some row.mount := by
      rw [hrow.parse_spelled] at h
      cases hread : parseLine row.spelled with
      | none => simp [hread] at h
      | some mount =>
        rw [hread] at h
        exact congrArg some (List.singleton_inj.mp h)
    -- The names are what was read, and nothing that is read holds a stray blank.
    have hclean := hrow.isClean_spelled hothers
    exact isStray_eq_false_iff.mp (hclean.not_isStray hmount name hname c hc)

/-- A row with all that is escaped, with what looks like an escape and with letters of many
    bytes. -/
theorem parse_kernelLine_escapes :
    let row : MountRow :=
      ⟨"36", "-", "0:23", "/\\040", ⟨"/été\n\\", "my\ttype#", "\\040 src"⟩, "rw",
        ["shared:4", "#"], "-"⟩
    (row.IsFilled ∧
      ∀ name ∈ row.mount.names, ∀ c ∈ name.toList, isBlank c = true → c ∈ nameEscapes) ∧
      ∃ text, decode? row.kernelLine = some text ∧
        parse text = [⟨"/été\n\\", "my\ttype#", "\\040 src"⟩] := by
  intro row
  have hrow : row.IsFilled := by decide
  have hnames : ∀ name ∈ row.mount.names, ∀ c ∈ name.toList,
      isBlank c = true → c ∈ nameEscapes := by
    have hkept : ∀ name ∈ row.mount.names, name.toList.all (!isStray ·) := by decide
    intro name hname c hc
    have hnot := List.all_eq_true.mp (hkept name hname) c hc
    exact isStray_eq_false_iff.mp (by simpa using hnot)
  obtain ⟨text, htext, hread, -⟩ := parse_kernelLine row hrow
  exact ⟨⟨hrow, hnames⟩, text, htext, hread hnames⟩

/-- A no-break space is written as it is, and what follows it in the mountpoint is lost. -/
theorem parse_kernelLine_noBreakSpace :
    let row : MountRow :=
      ⟨"36", "35", "98:0", "/", ⟨"/mnt/a\u00a0b", "ext4", "/dev/sda1"⟩, "rw", [], "rw"⟩
    let text := "36 35 98:0 / /mnt/a\u00a0b rw - ext4 /dev/sda1 rw\n"
    row.IsFilled ∧ decode? row.kernelLine = some text ∧
      parse text = [⟨"/mnt/a", "ext4", "/dev/sda1"⟩] ∧ parse text ≠ [row.mount] := by
  decide +kernel

end MountTable

end ContainerAudit
