import ContainerAudit.Live.IdMap
import ContainerAudit.Proofs.List
import ContainerAudit.Proofs.Text.Digits
import ContainerAudit.Proofs.Text.Trim

/-!
# The rows of an id map

A row of an id map is a line of three numbers with blanks around them: the first id inside, the
first id outside and the number of ids.  A text whose lines are rows or blank is read as the
mappings of its rows.  Any other text is refused as a whole, and the error names its first line that
is neither.

## Key results

- `parseLine?_eq_some_iff`: the lines in which a mapping is read
- `parse_rows`: the texts that are read, what is read in them, and why others are not
-/

namespace ContainerAudit.IdMapping

open Text (HasLines HasWords IsNumber isBlank)

/-! ## Rows -/

/-- A line holds the numbers of a mapping. -/
def IsRow (line : List Char) (m : IdMapping) : Prop :=
  ∃ container host size, HasWords line [container, host, size] ∧
    IsNumber 10 (2 ^ 32) container m.containerId.toNat ∧
    IsNumber 10 (2 ^ 32) host m.hostId.toNat ∧ IsNumber 10 (2 ^ 32) size m.size.toNat

/-- An id is read from the words that denote a number of 32 bits. -/
private theorem parseId?_eq_some_iff {word : List Char} {n : UInt32} :
    parseId? word = some n ↔ IsNumber 10 (2 ^ 32) word n.toNat := by
  have hread (n : Nat) : Text.readNat 10 UInt32.size word = .ok n ↔ IsNumber 10 (2 ^ 32) word n :=
    Text.readNat_eq_ok_iff (by decide) (by decide)
  rw [parseId?]
  constructor
  · intro h
    split at h
    · -- What is read is below the bound, so the word is the number itself.
      rename_i k hk
      obtain rfl := Option.some.inj h
      have hnumber := (hread k).mp hk
      rwa [UInt32.toNat_ofNat_of_lt' hnumber.lt]
    · cases h
  · intro h
    simp [(hread _).mpr h]

/-- A mapping is read from the lines that hold its three numbers. -/
theorem parseLine?_eq_some_iff {line : List Char} {m : IdMapping} :
    parseLine? line = some m ↔ IsRow line m := by
  simp only [IsRow, Text.hasWords_iff, ← parseId?_eq_some_iff]
  rw [parseLine?]
  -- A line of fewer or more than three words is no row.
  split
  · rename_i container host size hwords
    constructor
    · intro h
      simp only [Option.bind_eq_bind, Option.bind_eq_some_iff, Option.pure_def] at h
      obtain ⟨c, hc, h, hh, n, hn, hm⟩ := h
      obtain rfl := Option.some.inj hm
      exact ⟨_, _, _, hwords, hc, hh, hn⟩
    · rintro ⟨_, _, _, heq, hc, hh, hn⟩
      obtain ⟨rfl, rfl, rfl⟩ : _ ∧ _ ∧ _ := by simpa [hwords] using heq
      simp [hc, hh, hn]
  · rename_i hwords
    refine ⟨nofun, ?_⟩
    rintro ⟨_, _, _, heq, -⟩
    exact absurd heq (hwords _ _ _)

/-- The same, with the error that other lines give. -/
private theorem parseLine_eq_ok_iff {line : List Char} {m : IdMapping} :
    parseLine line = .ok m ↔ IsRow line m := by
  rw [← parseLine?_eq_some_iff, parseLine]
  cases parseLine? line <;> simp

/-- A line is refused if it is no row, and the error quotes it. -/
private theorem parseLine_eq_error_iff {line : List Char} {e : IoError} :
    parseLine line = .error e ↔ (∀ m, ¬IsRow line m) ∧ e = malformedLine line := by
  simp only [← parseLine?_eq_some_iff, parseLine]
  cases parseLine? line with
  | none => simp [eq_comm]
  | some m => simp

/-! ## Texts -/

/-- The lines that hold anything but blanks. -/
def filled (lines : List (List Char)) : List (List Char) :=
  lines.filter fun line => line.any (!isBlank ·)

/-- A carriage return at the end of a line is one more blank. -/
private theorem isRow_withoutReturn {line : List Char} {m : IdMapping} :
    IsRow (Text.withoutReturn line) m ↔ IsRow line m := by
  simp only [IsRow, Text.hasWords_iff, Text.words_withoutReturn]

/-- A row is not blank. -/
private theorem IsRow.any_not_isBlank {line : List Char} {m : IdMapping} (h : IsRow line m) :
    line.any (!isBlank ·) = true := by
  obtain ⟨_, _, _, hwords, -⟩ := h
  rw [Text.hasWords_iff] at hwords
  by_contra hblank
  have hnone : HasWords line [] := .nil (by simpa using hblank)
  rw [Text.hasWords_iff, hwords] at hnone
  cases hnone

/-- A text is read line by line, without its blank lines. -/
private theorem parse_eq_mapM (content : String) :
    parse content = (filled (Text.lines content.toList)).mapM parseLine := by
  -- A line is blank exactly if nothing is left of it when it is trimmed.
  have hfilled (line : List Char) : (!(Text.trim line).isEmpty) = line.any (!isBlank ·) := by
    rw [Bool.eq_iff_iff, Bool.not_eq_true', List.isEmpty_eq_false_iff, Text.trim, ne_eq,
      Text.trimWhere_eq_nil_iff]
    simp
  simp only [parse, filled, hfilled]

/-! ## Rows with blanks around their numbers -/

/-- A mapping with the blanks that are written around its numbers. -/
structure PaddedRow where
  mapping : IdMapping
  before : List Char
  afterContainer : List Char
  afterHost : List Char
  afterSize : List Char
  /-- The blanks do not end the line. -/
  blank : ∀ c ∈ before ++ afterContainer ++ afterHost ++ afterSize, isBlank c = true ∧ c ≠ '\n'
  /-- The numbers do not touch each other. -/
  apart : afterContainer ≠ [] ∧ afterHost ≠ []

namespace PaddedRow

/-- The line of a row. -/
def line (row : PaddedRow) : List Char :=
  row.before ++ Nat.toDigits 10 row.mapping.containerId.toNat ++
    (row.afterContainer ++ Nat.toDigits 10 row.mapping.hostId.toNat ++
      (row.afterHost ++ Nat.toDigits 10 row.mapping.size.toNat ++ row.afterSize))

/-- The decimal digits of an id denote it. -/
theorem isNumber_toDigits (n : UInt32) : IsNumber 10 (2 ^ 32) (Nat.toDigits 10 n.toNat) n.toNat :=
  Text.isNumber_toDigits (by decide) n.toNat_lt

/-- What is written for a row is one, whatever the blanks. -/
private theorem isRow_line (row : PaddedRow) : IsRow row.line row.mapping := by
  have hcontainer := isNumber_toDigits row.mapping.containerId
  have hhost := isNumber_toDigits row.mapping.hostId
  have hsize := isNumber_toDigits row.mapping.size
  refine ⟨_, _, _, ?_, hcontainer, hhost, hsize⟩
  obtain ⟨⟨⟨hbefore, hfirst⟩, hsecond⟩, hafter⟩ := by
    simpa only [List.forall_mem_append] using fun c hc => (row.blank c hc).1
  -- The blanks between two numbers end the first one.
  have hhead {blanks : List Char} (hblank : ∀ c ∈ blanks, isBlank c = true) (hne : blanks ≠ [])
      (rest : List Char) : ∀ c ∈ (blanks ++ rest).head?, isBlank c = true := by
    rw [List.head?_append_of_ne_nil _ hne]
    exact fun c hc => hblank c (List.mem_of_mem_head? hc)
  refine .cons hbefore (hcontainer.isWord (by decide)) ?_
    (.cons hfirst (hhost.isWord (by decide)) ?_
      (.cons hsecond (hsize.isWord (by decide)) ?_ (.nil hafter)))
  · rw [List.append_assoc]
    exact hhead hfirst row.apart.1 _
  · rw [List.append_assoc]
    exact hhead hsecond row.apart.2 _
  · exact fun c hc => hafter c (List.mem_of_mem_head? hc)

/-- A row stays on its line: the line feed is a blank, and those of the row are others. -/
private theorem not_mem_line (row : PaddedRow) : '\n' ∉ row.line := by
  have hnumber (n : UInt32) : '\n' ∉ Nat.toDigits 10 n.toNat := fun hmem => by
    have hblank := ((isNumber_toDigits n).isWord (by decide)).2 _ hmem
    exact absurd hblank (by decide)
  have hblanks : '\n' ∉ row.before ++ row.afterContainer ++ row.afterHost ++ row.afterSize :=
    fun hmem => (row.blank _ hmem).2 rfl
  simp only [List.mem_append, not_or] at hblanks
  simp only [line, List.mem_append, not_or]
  exact ⟨⟨hblanks.1.1.1, hnumber _⟩, ⟨hblanks.1.1.2, hnumber _⟩, ⟨hblanks.1.2, hnumber _⟩,
    hblanks.2⟩

end PaddedRow

/-- A text of rows, each with its end. -/
def printed (rows : List PaddedRow) : String :=
  String.ofList (rows.flatMap fun row => row.line ++ ['\n'])

/-- The lines of printed rows are the rows, each without a carriage return at its end. -/
private theorem lines_printed (rows : List PaddedRow) :
    Text.lines (printed rows).toList = rows.map fun row => Text.withoutReturn row.line := by
  rw [printed, String.toList_ofList]
  induction rows with
  | nil => rfl
  | cons row rest ih =>
    rw [List.flatMap_cons, List.append_assoc, List.singleton_append,
      Text.lines_cons row.not_mem_line, ih, List.map_cons]

/-- Mappings that were written with any blanks around their numbers are read back. -/
private theorem parse_printed (rows : List PaddedRow) :
    parse (printed rows) = .ok (rows.map (·.mapping)) := by
  have hrow (row : PaddedRow) : IsRow (Text.withoutReturn row.line) row.mapping :=
    isRow_withoutReturn.mpr row.isRow_line
  have hfilled : filled (Text.lines (printed rows).toList) =
      rows.map fun row => Text.withoutReturn row.line := by
    rw [lines_printed, filled, List.filter_eq_self]
    exact List.forall_mem_map.mpr fun row _ => (hrow row).any_not_isBlank
  rw [parse_eq_mapM, hfilled, List.mapM_eq_ok_iff, List.forall₂_map_left_iff,
    List.forall₂_map_right_iff]
  exact List.forall₂_same.mpr fun row _ => parseLine_eq_ok_iff.mpr (hrow row)

/-! ## The grammar -/

/-- A text is read exactly if each of its lines that is not blank is a row, and what is read are the
    mappings of these lines in their order.  Else the error names the first line that is neither,
    without the blanks at its ends.  Mappings that are written in rows are read back. -/
theorem parse_rows :
    (∀ content, ∃ lines, HasLines content.toList lines ∧
      ((∃ ms, parse content = .ok ms) ↔ ∀ line ∈ filled lines, ∃ m, IsRow line m) ∧
      (∀ ms, parse content = .ok ms ↔ List.Forall₂ IsRow (filled lines) ms) ∧
      ∀ e, parse content = .error e ↔
        ∃ before line after, filled lines = before ++ line :: after ∧
          (∀ row ∈ before, ∃ m, IsRow row m) ∧ (∀ m, ¬IsRow line m) ∧
          e = ⟨.invalidData, s!"invalid id map line '{String.ofList (Text.trim line)}'"⟩) ∧
      ∀ rows : List PaddedRow, parse (printed rows) = .ok (rows.map (·.mapping)) := by
  refine ⟨fun content => ⟨_, Text.hasLines_lines _, ?_, fun ms => ?_, fun e => ?_⟩, parse_printed⟩
  · simp only [parse_eq_mapM, List.mapM_eq_ok_iff, parseLine_eq_ok_iff, List.exists_forall₂_iff]
  · simp only [parse_eq_mapM, List.mapM_eq_ok_iff, parseLine_eq_ok_iff]
  · simp only [parse_eq_mapM, List.mapM_eq_error_iff, parseLine_eq_ok_iff, parseLine_eq_error_iff,
      malformedLine]

/-- A row with several blanks before its first number, a tab between the others and a carriage
    return at its end. -/
def looseRow : PaddedRow where
  mapping := ⟨1000, 0, 65536⟩
  before := [' ', ' ', ' ']
  afterContainer := [' ', '\t']
  afterHost := ['\t']
  afterSize := [' ', '\r']
  blank := by simp [isBlank]
  apart := by simp

/-- A row of numbers with one blank between them. -/
def tightRow : PaddedRow where
  mapping := ⟨4294967295, 4294967295, 1⟩
  before := []
  afterContainer := [' ']
  afterHost := [' ']
  afterSize := []
  blank := by simp [isBlank]
  apart := by simp

/-- Both rows are read back. -/
theorem parse_looseRow :
    printed [looseRow, tightRow] = "   0 \t1000\t65536 \r\n4294967295 4294967295 1\n" ∧
      parse "   0 \t1000\t65536 \r\n4294967295 4294967295 1\n" =
        .ok [⟨1000, 0, 65536⟩, ⟨4294967295, 4294967295, 1⟩] := by
  have hprinted : printed [looseRow, tightRow] =
      "   0 \t1000\t65536 \r\n4294967295 4294967295 1\n" := by decide +kernel
  have hread := parse_rows.2 [looseRow, tightRow]
  rw [hprinted] at hread
  exact ⟨hprinted, hread⟩

end ContainerAudit.IdMapping
