import ContainerAudit.Live.ProcFile
import ContainerAudit.Proofs.List
import ContainerAudit.Proofs.Text.Trim
import ContainerAudit.Proofs.Text.Utf8

/-!
# The arguments in an argument file

The kernel writes a zero byte after each argument of a process.  An empty argument is a zero byte
and nothing else, so at either end of the file it cannot be told from the zero bytes that do not
count: reading the file back gives the arguments without the empty ones at both ends
(`parseArguments_argumentFile`).
-/

namespace ContainerAudit

open Text (Bytes encode trimWhere trimWhere_eq)

/-- The argument file of a process, as the kernel writes it. -/
def argumentFile (args : List String) : Bytes := args.flatMap fun arg => encode arg ++ [0]

/-- Arguments that hold no zero character, which would end them. -/
def ZeroFree (args : List String) : Prop := ∀ arg ∈ args, '\x00' ∉ arg.toList

instance (args : List String) : Decidable (ZeroFree args) :=
  inferInstanceAs (Decidable (∀ arg ∈ args, '\x00' ∉ arg.toList))

/-! ## The ends of the file -/

/-- The zero bytes at the start of the file are its empty arguments there. -/
private theorem dropWhile_argumentFile {args : List String} (h : ZeroFree args) :
    (argumentFile args).dropWhile (· == 0) = argumentFile (args.dropWhile String.isEmpty) := by
  induction args with
  | nil => rfl
  | cons arg rest ih =>
    have hrest := ih fun arg' harg' => h arg' (List.mem_cons_of_mem _ harg')
    have hfile : argumentFile (arg :: rest) = encode arg ++ 0 :: argumentFile rest := by
      simp [argumentFile]
    by_cases harg : arg = ""
    · -- The zero byte of an empty argument is dropped with the argument.
      subst harg
      rw [hfile, List.dropWhile_cons_of_pos (by decide : String.isEmpty "" = true), ← hrest]
      rfl
    · have hne : encode arg ≠ [] := fun heq => harg (Text.encode_eq_nil_iff.mp heq)
      obtain ⟨b, bytes, hbytes⟩ := List.exists_cons_of_ne_nil hne
      have hb : b ≠ 0 := by
        rintro rfl
        exact Text.zero_not_mem_encode (h arg List.mem_cons_self) (hbytes ▸ List.mem_cons_self)
      have hkept : ¬arg.isEmpty = true := fun heq => harg (String.isEmpty_iff.mp heq)
      rw [List.dropWhile_cons_of_neg hkept, hfile, hbytes, List.cons_append,
        List.dropWhile_cons_of_neg (by simpa using hb)]

/-- Without the zero bytes at its end, the file is its arguments with a zero byte between each
    two, but for the empty ones at the end. -/
private theorem rdropWhile_argumentFile {args : List String} (h : ZeroFree args) :
    (argumentFile args).rdropWhile (· == 0) =
      [0].intercalate ((args.rdropWhile String.isEmpty).map encode) := by
  induction args using List.reverseRecOn with
  | nil => rfl
  | append_singleton rest arg ih =>
    have hrest := ih fun arg' harg' => h arg' (List.mem_append_left _ harg')
    have hfile : argumentFile (rest ++ [arg]) = argumentFile rest ++ encode arg ++ [0] := by
      simp [argumentFile]
    rw [hfile, List.rdropWhile_concat_pos _ _ _ (by decide)]
    by_cases harg : arg = ""
    · subst harg
      rw [List.rdropWhile_concat_pos _ _ _ (by decide : String.isEmpty "" = true), ← hrest]
      simp [Text.encode_eq_nil_iff.mpr rfl]
    · have hne : encode arg ≠ [] := fun heq => harg (Text.encode_eq_nil_iff.mp heq)
      have hkept : ¬arg.isEmpty = true := fun heq => harg (String.isEmpty_iff.mp heq)
      obtain ⟨bytes, b, hbytes⟩ := (List.eq_nil_or_concat' _).resolve_left hne
      have hb : b ≠ 0 := by
        rintro rfl
        exact Text.zero_not_mem_encode (h arg (by simp)) (by simp [hbytes])
      -- The last byte of a non-empty argument is no zero byte, so nothing more is dropped.
      rw [List.rdropWhile_concat_neg _ _ _ hkept, List.map_append, List.map_singleton,
        List.intercalate_concat, hbytes, ← List.append_assoc,
        List.rdropWhile_concat_neg _ _ _ (by simpa using hb)]
      simp [argumentFile, List.flatMap_map]

/-! ## Reading -/

/-- Reading an argument file gives the arguments without the empty ones at both ends. -/
theorem parseArguments_argumentFile {args : List String} (h : ZeroFree args) :
    parseArguments (argumentFile args) = trimWhere String.isEmpty args := by
  have hdropped : ZeroFree (args.dropWhile String.isEmpty) := fun arg harg =>
    h arg (List.dropWhile_subset _ harg)
  have hbytes : trimWhere (· == 0) (argumentFile args) =
      [0].intercalate ((trimWhere String.isEmpty args).map encode) := by
    rw [trimWhere_eq, dropWhile_argumentFile h, rdropWhile_argumentFile hdropped, trimWhere_eq]
  -- From here on only the arguments that are left matter, and their bytes have to be split.
  have hkept : ZeroFree (trimWhere String.isEmpty args) := fun arg harg =>
    hdropped arg ((List.rdropWhile_prefix _ _).subset harg)
  rw [parseArguments, hbytes]
  generalize hcore : trimWhere String.isEmpty args = core at hkept ⊢
  rcases List.eq_nil_or_concat' core with rfl | ⟨inner, last, rfl⟩
  · rfl
  · -- The last argument that is left is not empty, so neither are the bytes.
    have hlast : last ≠ "" := by
      have hlast := List.rdropWhile_last_not String.isEmpty (args.dropWhile String.isEmpty)
      rw [← trimWhere_eq, hcore] at hlast
      simpa using hlast
    have hsplit : ([0].intercalate ((inner ++ [last]).map encode)).splitOn 0 =
        (inner ++ [last]).map encode := by
      refine List.splitOn_intercalate 0 (List.forall_mem_map.mpr fun arg harg => ?_) (by simp)
      exact Text.zero_not_mem_encode (hkept arg harg)
    have hne : [0].intercalate ((inner ++ [last]).map encode) ≠ [] := by
      simp [List.intercalate_concat, Text.encode_eq_nil_iff, hlast]
    have hread : ((inner ++ [last]).map encode).map Text.decodeLossy = inner ++ [last] := by
      simp [Function.comp_def, Text.decodeLossy_encode]
    split
    · rename_i hnil
      exact absurd hnil hne
    · rw [hsplit, hread]

end ContainerAudit
