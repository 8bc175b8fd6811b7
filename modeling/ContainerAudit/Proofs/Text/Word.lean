import ContainerAudit.Proofs.List
import ContainerAudit.Proofs.Text.Trim
import ContainerAudit.Text.Blank
import ContainerAudit.Text.Utf8

/-!
# Texts of lines and words

A text that was put together from lines and words is taken apart into the same lines and words.
Lines are told apart by the line feeds after them and words by a blank between them, so a line may
hold no line feed and a word no blank.

## Key results

- `lines_cons`: the first line of a text, and the lines after it
- `hasLines_iff`: the lines of a text are those that it consists of
- `words_append_cons`: the words on the two sides of a blank
- `words_intercalate`: words that were joined are the words again
- `hasWords_iff`: the words of a line are those that it consists of
-/

namespace ContainerAudit.Text

/-! ## Lines -/

/-- What stands before the first line feed is a line, but for a carriage return at its end. -/
theorem lines_cons {line : List Char} (h : '\n' ∉ line) (rest : List Char) :
    lines (line ++ '\n' :: rest) = withoutReturn line :: lines rest := by
  have hsplit : (line ++ '\n' :: rest).splitOn '\n' = line :: rest.splitOn '\n' := by
    have hline : ∀ c ∈ line, (c == '\n') = false := fun c hc =>
      beq_eq_false_iff_ne.mpr fun heq => h (heq ▸ hc)
    rw [List.splitOn, List.splitOnP_append_cons line rest (by simp),
      List.splitOnP_eq_singleton hline]
    rfl
  -- The last piece of a split is no line of its own, so it matters that the rest has a piece.
  obtain ⟨first, others, hrest⟩ := List.exists_cons_of_ne_nil (List.splitOn_ne_nil '\n' rest)
  rw [lines, lines, hsplit, hrest]
  simp [List.dropLast_cons_of_ne_nil, List.getLast?_cons_cons]

theorem withoutReturn_of_not_mem {line : List Char} (h : '\r' ∉ line) :
    withoutReturn line = line := by
  unfold withoutReturn
  exact if_neg fun hlast => h (List.mem_of_getLast? hlast)

private theorem withoutReturn_concat (line : List Char) :
    withoutReturn (line ++ ['\r']) = line := by
  simp [withoutReturn]

/-- A text without a line feed is one line, unless it is empty. -/
private theorem lines_of_not_mem {line : List Char} (hne : line ≠ []) (h : '\n' ∉ line) :
    lines line = [line] := by
  have hsplit : line.splitOn '\n' = [line] :=
    List.splitOnP_eq_singleton fun c hc => beq_eq_false_iff_ne.mpr fun heq => h (heq ▸ hc)
  simp [lines, hsplit, hne]

/-- A text consists of lines.  A line ends at a line feed, which may have one carriage return before
    it; what stands behind the last line feed is a line as it is, if there is anything. -/
inductive HasLines : List Char → List (List Char) → Prop where
  | nil : HasLines [] []
  | last {line : List Char} (hne : line ≠ []) (hfeed : '\n' ∉ line) : HasLines line [line]
  | feed {line text : List Char} {lines : List (List Char)} (hfeed : '\n' ∉ line)
    (hreturn : line.getLast? ≠ some '\r') (h : HasLines text lines) :
    HasLines (line ++ '\n' :: text) (line :: lines)
  | returnFeed {line text : List Char} {lines : List (List Char)} (hfeed : '\n' ∉ line)
    (h : HasLines text lines) : HasLines (line ++ '\r' :: '\n' :: text) (line :: lines)

/-- A text that consists of lines is split into them. -/
theorem HasLines.lines_eq {text : List Char} {ls : List (List Char)} (h : HasLines text ls) :
    lines text = ls := by
  induction h with
  | nil => rfl
  | last hne hfeed => exact lines_of_not_mem hne hfeed
  | feed hfeed hreturn _ ih => rw [lines_cons hfeed, withoutReturn, if_neg hreturn, ih]
  | @returnFeed line text ls hfeed _ ih =>
    have htext : line ++ '\r' :: '\n' :: text = (line ++ ['\r']) ++ '\n' :: text := by simp
    have hfeed' : '\n' ∉ line ++ ['\r'] := by simpa using hfeed
    rw [htext, lines_cons hfeed', withoutReturn_concat, ih]

/-- A text consists of the lines that it is split into. -/
theorem hasLines_lines (text : List Char) : HasLines text (lines text) := by
  -- The induction is on the length: behind the first line feed the text is shorter.
  induction hlength : text.length using Nat.strongRecOn generalizing text with
  | _ length ih =>
    subst hlength
    by_cases hfeed : '\n' ∈ text
    · obtain ⟨line, rest, rfl, hline⟩ := List.eq_append_cons_of_mem hfeed
      have hrest := ih rest.length (by simp; omega) rest rfl
      rw [lines_cons hline]
      by_cases hreturn : line.getLast? = some '\r'
      · obtain ⟨start, rfl⟩ := List.getLast?_eq_some_iff.mp hreturn
        rw [withoutReturn_concat, List.append_assoc]
        exact .returnFeed (fun h => hline (List.mem_append_left _ h)) hrest
      · rw [withoutReturn, if_neg hreturn]
        exact .feed hline hreturn hrest
    · by_cases hne : text = []
      · subst hne
        exact .nil
      · rw [lines_of_not_mem hne hfeed]
        exact .last hne hfeed

/-- The lines of a text are those that it consists of. -/
theorem hasLines_iff {text : List Char} {ls : List (List Char)} :
    HasLines text ls ↔ lines text = ls :=
  ⟨HasLines.lines_eq, fun h => h ▸ hasLines_lines text⟩

/-! ## Words -/

/-- A piece of text is one word: it is not empty and holds no blank. -/
def IsWord (piece : List Char) : Prop := piece ≠ [] ∧ ∀ c ∈ piece, isBlank c = false

instance (piece : List Char) : Decidable (IsWord piece) :=
  -- The characters of the piece are tried, not all that there are.
  letI : Decidable (∀ c ∈ piece, isBlank c = false) := List.decidableBAll _ piece
  inferInstanceAs (Decidable (_ ∧ _))

/-- A blank belongs to no word. -/
theorem words_append_cons {blank : Char} (h : isBlank blank = true) (s t : List Char) :
    words (s ++ blank :: t) = words s ++ words t := by
  rw [words, List.splitOnP_append_cons s t h, List.filter_append]
  rfl

@[simp] theorem words_nil : words [] = [] := rfl

/-- A word is split into itself. -/
theorem words_of_isWord {word : List Char} (h : IsWord word) : words word = [word] := by
  rw [words, List.splitOnP_eq_singleton h.2]
  simp [h.1]

/-- Of a word with blanks around it, trimming leaves the word. -/
theorem trim_append_of_isWord {x word y : List Char} (hx : ∀ c ∈ x, isBlank c = true)
    (hword : IsWord word) (hy : ∀ c ∈ y, isBlank c = true) : trim (x ++ word ++ y) = word := by
  rw [trim, trimWhere_append hx hy, trimWhere_eq_self_iff]
  exact ⟨fun c hc => hword.2 c (List.mem_of_mem_head? hc),
    fun c hc => hword.2 c (List.mem_of_mem_getLast? hc)⟩

/-- The carriage return at the end of a line belongs to no word. -/
@[simp] theorem words_withoutReturn (line : List Char) :
    words (withoutReturn line) = words line := by
  unfold withoutReturn
  split
  · rename_i hlast
    obtain ⟨start, rfl⟩ := List.getLast?_eq_some_iff.mp hlast
    rw [List.dropLast_concat, words_append_cons (by decide), words_nil, List.append_nil]
  · rfl

/-- The words of joined pieces are those of each piece. -/
theorem words_intercalate_eq_flatMap (pieces : List (List Char)) :
    words ([' '].intercalate pieces) = pieces.flatMap words := by
  induction pieces with
  | nil => rfl
  | cons first rest ih =>
    cases rest with
    | nil => simp
    | cons second rest =>
      rw [List.intercalate_cons_cons, List.append_assoc, List.singleton_append,
        words_append_cons (by decide), ih]
      exact List.flatMap_cons.symm

/-- Words with a space between each two are taken apart again. -/
theorem words_intercalate {pieces : List (List Char)} (h : ∀ piece ∈ pieces, IsWord piece) :
    words ([' '].intercalate pieces) = pieces := by
  rw [words_intercalate_eq_flatMap,
    List.flatMap_congr fun piece hpiece => words_of_isWord (h piece hpiece)]
  exact List.flatMap_singleton' pieces

/-- A character of joined words is the space between them or no blank. -/
private theorem eq_or_not_isBlank_of_mem_intercalate {pieces : List (List Char)}
    (h : ∀ piece ∈ pieces, IsWord piece) {c : Char} (hc : c ∈ [' '].intercalate pieces) :
    c = ' ' ∨ isBlank c = false := by
  induction pieces with
  | nil => simp at hc
  | cons first rest ih =>
    have hfirst := (h first List.mem_cons_self).2
    cases rest with
    | nil => exact .inr (hfirst c (by simpa using hc))
    | cons second rest =>
      -- It stands in the first word, or it is the space, or it stands behind that.
      rw [List.intercalate_cons_cons, List.append_assoc, List.mem_append] at hc
      rcases hc with hc | hc
      · exact .inr (hfirst c hc)
      · rcases List.mem_cons.mp hc with rfl | hc
        · exact .inl rfl
        · exact ih (fun piece hpiece => h piece (List.mem_cons_of_mem _ hpiece)) hc

/-- Joined words hold no blank but the space. -/
theorem not_mem_intercalate {pieces : List (List Char)} (h : ∀ piece ∈ pieces, IsWord piece)
    {blank : Char} (hblank : isBlank blank = true) (hspace : blank ≠ ' ') :
    blank ∉ [' '].intercalate pieces := by
  intro hmem
  rcases eq_or_not_isBlank_of_mem_intercalate h hmem with heq | hnot
  · exact hspace heq
  · rw [hblank] at hnot
    cases hnot

/-! ### Words and the blanks around them -/

/-- A line consists of words.  Blanks may stand before a word, and it ends where the line ends or at
    a blank. -/
inductive HasWords : List Char → List (List Char) → Prop where
  | nil {blanks : List Char} (hblanks : ∀ c ∈ blanks, isBlank c = true) : HasWords blanks []
  | cons {blanks word rest : List Char} {words : List (List Char)}
    (hblanks : ∀ c ∈ blanks, isBlank c = true) (hword : IsWord word)
    (hrest : ∀ c ∈ rest.head?, isBlank c = true) (h : HasWords rest words) :
    HasWords (blanks ++ word ++ rest) (word :: words)

/-- Blanks before the first word do not count. -/
private theorem words_append_of_blanks {blanks : List Char} (h : ∀ c ∈ blanks, isBlank c = true)
    (s : List Char) : words (blanks ++ s) = words s := by
  induction blanks with
  | nil => rfl
  | cons c rest ih =>
    obtain ⟨hc, hrest⟩ := List.forall_mem_cons.mp h
    have happend := words_append_cons hc [] (rest ++ s)
    rw [words_nil, ih hrest] at happend
    exact happend

/-- A line that consists of words is split into them. -/
private theorem HasWords.words_eq {s : List Char} {ws : List (List Char)} (h : HasWords s ws) :
    words s = ws := by
  induction h with
  | nil hblanks =>
    have happend := words_append_of_blanks hblanks []
    rwa [List.append_nil] at happend
  | @cons blanks word rest ws hblanks hword hrest _ ih =>
    rw [List.append_assoc, words_append_of_blanks hblanks]
    cases rest with
    | nil => rw [List.append_nil, words_of_isWord hword, ← ih, words_nil]
    | cons c rest =>
      -- The words behind the blank are the same with it and without it.
      have hc : isBlank c = true := hrest c rfl
      have hrest' := words_append_cons hc [] rest
      rw [words_nil, List.nil_append, List.nil_append, ih] at hrest'
      rw [words_append_cons hc, words_of_isWord hword, ← hrest']
      rfl

/-- Every line consists of some words. -/
private theorem exists_hasWords (s : List Char) : ∃ ws, HasWords s ws := by
  induction hlength : s.length using Nat.strongRecOn generalizing s with
  | _ length ih =>
    subst hlength
    -- The blanks at the start, the word behind them, and what follows.
    obtain ⟨blanks, t, rfl, hblanks, ht⟩ := List.exists_append_of_head? isBlank s
    obtain ⟨word, rest, rfl, hword, hrest⟩ := List.exists_append_of_head? (!isBlank ·) t
    simp only [Bool.not_eq_true', Bool.not_eq_false'] at hword hrest
    by_cases hne : word = []
    · -- What follows the blanks begins neither with a blank nor with anything else.
      subst hne
      have hrest : rest = [] := by
        cases rest with
        | nil => rfl
        | cons c rest => exact absurd ((hrest c rfl).symm.trans (ht c rfl)) (by decide)
      subst hrest
      exact ⟨[], .nil (by simpa using hblanks)⟩
    · have hlt : rest.length < (blanks ++ (word ++ rest)).length := by
        have hpos := List.length_pos_iff.mpr hne
        simp only [List.length_append]
        omega
      obtain ⟨ws, hws⟩ := ih _ hlt rest rfl
      rw [← List.append_assoc]
      exact ⟨word :: ws, .cons hblanks ⟨hne, hword⟩ hrest hws⟩

/-- The words of a line are those that it consists of. -/
theorem hasWords_iff {s : List Char} {ws : List (List Char)} : HasWords s ws ↔ words s = ws := by
  refine ⟨HasWords.words_eq, ?_⟩
  rintro rfl
  obtain ⟨ws, h⟩ := exists_hasWords s
  rwa [h.words_eq]

end ContainerAudit.Text
