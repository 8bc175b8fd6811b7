import ContainerAudit.Live.ProcFile
import ContainerAudit.Proofs.Path.Ancestor
import ContainerAudit.Proofs.Text.Trim

/-!
# Kernel parameters

The key of a parameter is turned into a path below `/proc/sys`, and what stands in the file is
trimmed: first of zero characters, then of blanks.

A key is split at its dots as well as at its slashes, so no piece of it is a dot or leads up, and
following the path of a key leaves just the names in it.  The path is joined to the directory only
if it is relative, though.  A key that begins with a dot or a slash stands for itself, and its file
can lie anywhere.

Either trimming stops where the other one would go on.  A zero character is therefore left out only
outside the blanks around a value: before the first of them or behind the last one.

## Key results

- `canonical_path`, `path_inDirectory_iff`: where the file of a parameter lies
- `value_eq_iff`: the texts from which a value is read that neither begins nor ends with padding
- `value_encode_value_iff`: when reading a value once more changes it
-/

namespace ContainerAudit.Sysctl

open ContainerAudit.Path (canonical components follow isProperAncestor isRooted join normalForm
  IsName IsNormal)
open Text (Bytes decodeLossy encode exists_append_trimWhere isBlank trim trimWhere trimWhere_append
  trimWhere_eq_self_iff trimWhere_sublist trimWhere_trimWhere)

/-! ## Where a parameter is looked for -/

/-- The characters between the names in a key. -/
def isSeparator (c : Char) : Bool := c == '.' || c == '/'

/-- A key that begins with a dot or a slash. -/
def isRootedKey (key : String) : Bool := key.toList.head?.any isSeparator

/-- The pieces of a key between its dots and slashes; some may be empty. -/
def pieces (key : String) : List String := (key.toList.splitOnP isSeparator).map String.ofList

/-- The names in a key: its pieces that are not empty. -/
def names (key : String) : List String := (pieces key).filter (· ≠ "")

/-- A file is the directory of the parameters or lies in it, as far as its path says. -/
def InDirectory (path : String) : Prop :=
  canonical path = "/proc/sys" ∨ isProperAncestor "/proc/sys" (canonical path) = true

instance (path : String) : Decidable (InDirectory path) :=
  inferInstanceAs (Decidable (_ ∨ _))

/-- A key with a slash for each dot. -/
def slashed (key : String) : String :=
  String.ofList (key.toList.map fun c => if c = '.' then '/' else c)

/-- With a slash for each dot, a key is split at both. -/
private theorem components_slashed (key : String) : components (slashed key) = pieces key := by
  rw [components, slashed, String.toList_ofList, pieces]
  congr 1
  induction key.toList with
  | nil => simp
  | cons c rest ih =>
    rw [List.map_cons, List.splitOn_cons_eq_if_modifyHead, List.splitOnP_cons_eq_if_modifyHead, ih]
    by_cases hdot : c = '.'
    · simp [hdot, isSeparator]
    · by_cases hslash : c = '/' <;> simp [hdot, hslash, isSeparator]

/-- With a slash for each dot, a key that begins with either is an absolute path. -/
private theorem isRooted_slashed (key : String) : isRooted (slashed key) = isRootedKey key := by
  rw [isRooted, slashed, String.toList_ofList, isRootedKey]
  cases key.toList with
  | nil => rfl
  | cons c rest =>
    by_cases hdot : c = '.' <;> simp [hdot, isSeparator]

/-- The path of a key that begins with a separator is the key itself, with a slash for each dot. -/
private theorem path_eq (key : String) :
    path key = if isRootedKey key then slashed key else "/proc/sys" ++ "/" ++ slashed key := by
  have hhead : (slashed key).toList.head? = some '/' ↔ isRootedKey key = true := by
    rw [← isRooted_slashed, isRooted, beq_iff_eq]
  rw [slashed, String.toList_ofList] at hhead
  -- Joining leaves the directory out if what comes behind it is absolute.
  rw [path, Path.append]
  split
  · rename_i hrooted
    rw [if_pos (hhead.mp hrooted), slashed]
  · rename_i hrooted
    rw [if_neg (mt hhead.mpr hrooted), ← String.toList_inj]
    simp [slashed]

/-- The path of a parameter is absolute, whatever its key. -/
private theorem isRooted_path (key : String) : isRooted (path key) = true := by
  rw [path_eq]
  split
  · rename_i hrooted
    rw [isRooted_slashed, hrooted]
  · simp [isRooted]

/-- The components of the path are the pieces of the key, behind those of the directory unless the
    key begins with a separator. -/
private theorem components_path (key : String) :
    components (path key) =
      (if isRootedKey key then [] else ["", "proc", "sys"]) ++ pieces key := by
  have hdirectory : components "/proc/sys" = ["", "proc", "sys"] := by decide +kernel
  rw [path_eq]
  split
  · exact components_slashed key
  · rw [Path.components_append_slash, hdirectory, components_slashed]

/-- A piece that is not empty is a name: without dots it is neither a dot nor the way up. -/
private theorem isName_of_mem_pieces {key c : String} (hc : c ∈ pieces key) (hne : c ≠ "") :
    IsName c := by
  obtain ⟨piece, hpiece, rfl⟩ := List.mem_map.mp hc
  have hseparator := List.not_of_mem_splitOnP hpiece
  have hdot : '.' ∉ (String.ofList piece).toList := by
    rw [String.toList_ofList]
    exact fun h => absurd (hseparator _ h) (by decide)
  -- A dot and the way up consist of dots, at which the key was split.
  refine ⟨hne, fun h => hdot ?_, fun h => hdot ?_, ?_⟩
  · rw [h]
    decide
  · rw [h]
    decide
  · rw [String.toList_ofList]
    exact fun h => absurd (hseparator _ h) (by decide)

/-- Where every piece is a name or empty, the names are what remains. -/
private theorem normalForm_of_names {rooted : Bool} {cs : List String}
    (h : ∀ c ∈ cs, c ≠ "" → IsName c) : normalForm rooted cs = cs.filter (· ≠ "") := by
  -- The induction needs any stack: a name goes on top, and an empty piece is passed over.
  have hfold (stack : List String) :
      cs.foldl (follow rooted) stack = (cs.filter (· ≠ "")).reverse ++ stack := by
    induction cs generalizing stack with
    | nil => rfl
    | cons c rest ih =>
      have hrest := ih fun c' hc' => h c' (List.mem_cons_of_mem _ hc')
      by_cases hc : c = ""
      · subst hc
        simpa [follow] using hrest stack
      · rw [List.foldl_cons, Path.follow_name (h c List.mem_cons_self hc), hrest]
        simp [hc]
  rw [normalForm, hfold, List.append_nil, List.reverse_reverse]

/-- The steps from the root to the file of a parameter. -/
def steps (key : String) : List String :=
  (if isRootedKey key then [] else ["proc", "sys"]) ++ names key

/-- No component leads up, so the normal form only leaves out the empty ones. -/
private theorem normalForm_path (key : String) :
    normalForm true (components (path key)) = steps key := by
  rw [components_path, normalForm_of_names, List.filter_append, steps, names]
  · split <;> rfl
  · intro c hc hne
    rcases List.mem_append.mp hc with hc | hc
    · have hname : c = "proc" ∨ c = "sys" := by
        split at hc <;> simp_all
      rcases hname with rfl | rfl <;> constructor <;> decide
    · exact isName_of_mem_pieces hc hne

/-- The steps to the file of a parameter are all names. -/
theorem isNormal_steps (key : String) : IsNormal true (steps key) :=
  normalForm_path key ▸ Path.isNormal_components true (path key)

/-- The file of a parameter is reached by the names in its key, from the directory of the parameters
    unless the key begins with a separator. -/
theorem canonical_path (key : String) : canonical (path key) = join true (steps key) := by
  rw [canonical, isRooted_path, normalForm_path]

/-- A path lies in the directory of the parameters if the way to it begins with the way there. -/
private theorem inDirectory_join_iff {steps : List String} (h : IsNormal true steps) :
    (join true steps = "/proc/sys" ∨ isProperAncestor "/proc/sys" (join true steps) = true) ↔
      ["proc", "sys"] <+: steps := by
  have hsteps : normalForm true (components "/proc/sys") = ["proc", "sys"] := by decide +kernel
  have hdirectory : IsNormal true ["proc", "sys"] :=
    hsteps ▸ Path.isNormal_components true "/proc/sys"
  have htext : "/proc/sys" = join true ["proc", "sys"] := by decide +kernel
  rw [htext, Path.isProperAncestor_join_iff hdirectory h (by simp)]
  -- The way to the directory itself begins with all of it and does not go on.
  constructor
  · rintro (heq | ⟨hbegins, -⟩)
    · exact Path.join_injective h hdirectory heq ▸ List.prefix_rfl
    · exact hbegins
  · intro hbegins
    by_cases heq : steps = ["proc", "sys"]
    · exact .inl (congrArg _ heq)
    · exact .inr ⟨hbegins, Ne.symm heq⟩

/-- The file of a parameter is the directory of the parameters or lies in it exactly if its key
    begins with neither a dot nor a slash, or spells the way to that directory out itself. -/
theorem path_inDirectory_iff (key : String) :
    canonical (path key) = join true (steps key) ∧
      (InDirectory (path key) ↔ isRootedKey key = false ∨ ["proc", "sys"] <+: names key) := by
  refine ⟨canonical_path key, ?_⟩
  rw [InDirectory, canonical_path, inDirectory_join_iff (isNormal_steps key), steps]
  cases isRootedKey key with
  | true => simp
  | false => simp

/-- A key that begins with a separator can name any file. -/
theorem not_inDirectory_passwd :
    path "/etc/passwd" = "/etc/passwd" ∧ path ".etc.passwd" = "/etc/passwd" ∧
      ¬InDirectory (path "/etc/passwd") := by
  have hslash : path "/etc/passwd" = "/etc/passwd" := by decide +kernel
  have hdot : path ".etc.passwd" = "/etc/passwd" := by decide +kernel
  refine ⟨hslash, hdot, ?_⟩
  rw [hslash]
  decide +kernel

/-! ## What is read -/

/-- The characters that may stand around a value. -/
def isPadding (c : Char) : Bool := c == '\x00' || isBlank c

/-- Neither end of a text is padding. -/
def IsBare (text : List Char) : Prop :=
  (∀ c ∈ text.head?, isPadding c = false) ∧ ∀ c ∈ text.getLast?, isPadding c = false

instance (text : List Char) : Decidable (IsBare text) :=
  decidable_of_iff (text.head?.all (!isPadding ·) = true ∧ text.getLast?.all (!isPadding ·) = true)
    (by simp [IsBare, Option.all_eq_true])

/-- Zero characters and then blanks. -/
def ZerosFirst (padding : List Char) : Prop :=
  ∃ zeros blanks, padding = zeros ++ blanks ∧ (∀ c ∈ zeros, (c == '\x00') = true) ∧
    ∀ c ∈ blanks, isBlank c = true

/-- Blanks and then zero characters. -/
def ZerosLast (padding : List Char) : Prop :=
  ∃ blanks zeros, padding = blanks ++ zeros ∧ (∀ c ∈ blanks, isBlank c = true) ∧
    ∀ c ∈ zeros, (c == '\x00') = true

/-- A text is a value with blanks around it, and zero characters around these. -/
def IsWrapped (value text : List Char) : Prop :=
  ∃ before after, text = before ++ value ++ after ∧ ZerosFirst before ∧ ZerosLast after

/-- A text is bare if nothing is trimmed off it. -/
private theorem isBare_iff {text : List Char} :
    IsBare text ↔ trimWhere (· == '\x00') text = text ∧ trimWhere isBlank text = text := by
  rw [trimWhere_eq_self_iff, trimWhere_eq_self_iff]
  simp only [IsBare, isPadding, Bool.or_eq_false_iff]
  constructor
  · intro h
    exact ⟨⟨fun c hc => (h.1 c hc).1, fun c hc => (h.2 c hc).1⟩,
      fun c hc => (h.1 c hc).2, fun c hc => (h.2 c hc).2⟩
  · rintro ⟨hzero, hblank⟩
    exact ⟨fun c hc => ⟨hzero.1 c hc, hblank.1 c hc⟩, fun c hc => ⟨hzero.2 c hc, hblank.2 c hc⟩⟩

/-- Reading a value leaves out no more than what is wrapped around it. -/
private theorem isWrapped_value (raw : Bytes) :
    IsWrapped (value raw).toList (decodeLossy raw).toList := by
  rw [value, String.toList_ofList, trim]
  generalize (decodeLossy raw).toList = text
  obtain ⟨zeros, zeros', htext, hz, hz'⟩ := exists_append_trimWhere (· == '\x00') text
  obtain ⟨blanks, blanks', hinner, hb, hb'⟩ :=
    exists_append_trimWhere isBlank (trimWhere (· == '\x00') text)
  refine ⟨zeros ++ blanks, blanks' ++ zeros', ?_, ⟨_, _, rfl, hz, hb⟩, ⟨_, _, rfl, hb', hz'⟩⟩
  rw [hinner] at htext
  simpa only [List.append_assoc] using htext

/-- Between blanks, the first character is one of them or the first of the value. -/
private theorem head?_ne_zero {v blanks blanks' : List Char}
    (hv : ∀ c ∈ v.head?, (c == '\x00') = false)
    (hb : ∀ c ∈ blanks, isBlank c = true) (hb' : ∀ c ∈ blanks', isBlank c = true) :
    ∀ c ∈ (blanks ++ v ++ blanks').head?, (c == '\x00') = false := by
  have hblank {c : Char} (h : isBlank c = true) : (c == '\x00') = false := by
    rw [beq_eq_false_iff_ne]
    rintro rfl
    exact absurd h (by decide)
  intro c hc
  -- With neither blanks in front nor a value, it is one of the blanks behind.
  cases blanks with
  | cons b rest =>
    obtain rfl : b = c := by simpa using hc
    exact hblank (hb b List.mem_cons_self)
  | nil =>
    cases v with
    | cons first rest => exact hv c (by simpa using hc)
    | nil => exact hblank (hb' c (List.mem_of_mem_head? (by simpa using hc)))

/-- What is wrapped around a bare value is all left out. -/
private theorem trim_of_isWrapped {v text : List Char} (hv : IsBare v) (h : IsWrapped v text) :
    trim (trimWhere (· == '\x00') text) = v := by
  obtain ⟨_, _, rfl, ⟨zeros, blanks, rfl, hz, hb⟩, ⟨blanks', zeros', rfl, hb', hz'⟩⟩ := h
  obtain ⟨hzero, hblank⟩ := isBare_iff.mp hv
  -- Inside the zero characters, both ends are blanks or ends of the value.
  have hinner : trimWhere (· == '\x00') (blanks ++ v ++ blanks') = blanks ++ v ++ blanks' := by
    obtain ⟨hfirst, hlast⟩ := trimWhere_eq_self_iff.mp hzero
    rw [trimWhere_eq_self_iff]
    refine ⟨head?_ne_zero hfirst hb hb', ?_⟩
    have hreverse : ∀ c ∈ (blanks'.reverse ++ v.reverse ++ blanks.reverse).head?,
        (c == '\x00') = false :=
      head?_ne_zero (by simpa using hlast) (by simpa using hb') (by simpa using hb)
    rwa [← List.reverse_append, ← List.reverse_append, List.head?_reverse,
      ← List.append_assoc] at hreverse
  have htext : zeros ++ blanks ++ v ++ (blanks' ++ zeros') =
      zeros ++ (blanks ++ v ++ blanks') ++ zeros' := by
    simp only [List.append_assoc]
  rw [htext, trimWhere_append hz hz', hinner, trim, trimWhere_append hb hb', hblank]

/-- A bare value is read from exactly those texts in which it is wrapped. -/
theorem value_eq_iff {raw : Bytes} {v : String} (hv : IsBare v.toList) :
    value raw = v ↔ IsWrapped v.toList (decodeLossy raw).toList := by
  constructor
  · rintro rfl
    exact isWrapped_value raw
  · intro h
    rw [value, trim_of_isWrapped hv h, String.ofList_toList]

/-- Reading what was read changes nothing exactly if it is bare. -/
theorem value_encode_value_iff (raw : Bytes) :
    value (encode (value raw)) = value raw ↔ IsBare (value raw).toList := by
  constructor
  · intro h
    have hread := congrArg String.toList h
    rw [value, String.toList_ofList, Text.decodeLossy_encode, trim] at hread
    have hback := trimWhere_sublist isBlank (trimWhere (· == '\x00') (value raw).toList)
    rw [hread] at hback
    -- Nothing that either step leaves out can come back.
    have hzero : trimWhere (· == '\x00') (value raw).toList = (value raw).toList :=
      (trimWhere_sublist _ _).antisymm hback
    rw [hzero] at hread
    exact isBare_iff.mpr ⟨hzero, hread⟩
  · intro h
    rw [value_eq_iff h, Text.decodeLossy_encode]
    exact ⟨[], [], by simp, ⟨[], [], by simp⟩, ⟨[], [], by simp⟩⟩

/-- Zero characters and blanks are padding. -/
private theorem ZerosFirst.isPadding {padding : List Char} (h : ZerosFirst padding) :
    ∀ c ∈ padding, isPadding c = true := by
  obtain ⟨zeros, blanks, rfl, hz, hb⟩ := h
  intro c hc
  rw [Sysctl.isPadding, Bool.or_eq_true]
  exact (List.mem_append.mp hc).imp (hz c) (hb c)

/-- Around a bare value that is not empty, it is clear where the padding ends. -/
private theorem isWrapped_append_iff {x v y : List Char} (hx : ∀ c ∈ x, isPadding c = true)
    (hv : IsBare v) (hne : v ≠ []) :
    IsWrapped v (x ++ v ++ y) ↔ ZerosFirst x ∧ ZerosLast y := by
  -- The padding before the value is all that can be taken from the front of the text.
  have hspan {padding : List Char} (rest : List Char) (h : ∀ c ∈ padding, isPadding c = true) :
      (padding ++ v ++ rest).takeWhile isPadding = padding := by
    obtain ⟨first, others, rfl⟩ := List.exists_cons_of_ne_nil hne
    have hfirst : isPadding first = false := hv.1 first rfl
    rw [List.append_assoc, List.takeWhile_append_of_pos h, List.cons_append,
      List.takeWhile_cons_of_neg (by simp [hfirst]), List.append_nil]
  constructor
  · rintro ⟨before, after, htext, hbefore, hafter⟩
    obtain rfl : x = before := by
      rw [← hspan y hx, htext, hspan after hbefore.isPadding]
    obtain rfl : y = after := List.append_cancel_left htext
    exact ⟨hbefore, hafter⟩
  · rintro ⟨hbefore, hafter⟩
    exact ⟨x, y, rfl, hbefore, hafter⟩

/-- A bare value behind any padding is read exactly if the text is the value with blanks around it
    and zero characters around these: unless the value is empty, the padding before it has its zero
    characters first, and what stands behind it is padding that has them last.  What is read never
    has a blank at an end.  It has no zero character there either exactly if some bare value is
    wrapped so in the text, and only then does reading it once more change nothing. -/
theorem value_padded {x v y : String} (hx : ∀ c ∈ x.toList, isPadding c = true)
    (hv : IsBare v.toList) :
    (value (encode (x ++ v ++ y)) = v ↔ IsWrapped v.toList (x ++ v ++ y).toList) ∧
      (v ≠ "" → (IsWrapped v.toList (x ++ v ++ y).toList ↔
        ZerosFirst x.toList ∧ ZerosLast y.toList)) ∧
      ∀ raw : Bytes,
        (∀ c ∈ (value raw).toList.head?, isBlank c = false) ∧
        (∀ c ∈ (value raw).toList.getLast?, isBlank c = false) ∧
        (IsBare (value raw).toList ↔
          ∃ w, IsBare w ∧ IsWrapped w (decodeLossy raw).toList) ∧
        (value (encode (value raw)) = value raw ↔ IsBare (value raw).toList) := by
  have hread := @value_eq_iff (encode (x ++ v ++ y)) v hv
  rw [Text.decodeLossy_encode] at hread
  refine ⟨hread, fun hne => ?_, fun raw => ?_⟩
  · rw [String.toList_append, String.toList_append]
    exact isWrapped_append_iff hx hv (by simpa using hne)
  · -- Blanks are trimmed last, and trimming twice is trimming once.
    have htrim : trimWhere isBlank (value raw).toList = (value raw).toList := by
      rw [value, String.toList_ofList, trim, trimWhere_trimWhere]
    obtain ⟨hfirst, hlast⟩ := trimWhere_eq_self_iff.mp htrim
    refine ⟨hfirst, hlast, ⟨fun h => ⟨_, h, isWrapped_value raw⟩, ?_⟩, value_encode_value_iff raw⟩
    rintro ⟨w, hw, hwrapped⟩
    rw [value, trim_of_isWrapped hw hwrapped, String.toList_ofList]
    exact hw

/-- A value of several words is read from within blanks and zero characters. -/
theorem value_padded_words :
    let x := "\x00\t"
    let v := "4096\t87380\t6291456"
    let y := " \n\x00\x00"
    ((∀ c ∈ x.toList, isPadding c = true) ∧ IsBare v.toList) ∧
      value (encode (x ++ v ++ y)) = v := by
  intro x v y
  have hx : ∀ c ∈ x.toList, isPadding c = true := List.all_eq_true.mp (by decide +kernel)
  have hv : IsBare v.toList := by decide +kernel
  obtain ⟨hread, hwrapped, -⟩ := value_padded hx hv
  have hfirst : ZerosFirst x.toList :=
    ⟨['\x00'], ['\t'], by decide, by simp, List.all_eq_true.mp (by decide)⟩
  have hlast : ZerosLast y.toList :=
    ⟨[' ', '\n'], ['\x00', '\x00'], by decide, List.all_eq_true.mp (by decide), by simp⟩
  exact ⟨⟨hx, hv⟩, hread.mpr ((hwrapped (by decide)).mpr ⟨hfirst, hlast⟩)⟩

/-- Behind a zero character, a line feed keeps it from being left out. -/
theorem value_zeroInside :
    ((∀ c ∈ "\x00\n".toList, isPadding c = true) ∧ IsBare "1".toList) ∧
      value (encode ("1" ++ "\x00\n")) = "1\x00" ∧ value (encode "1\x00") = "1" := by
  have hpadding : ∀ c ∈ "\x00\n".toList, isPadding c = true := List.all_eq_true.mp (by decide)
  exact ⟨⟨hpadding, by decide⟩, by decide +kernel, by decide +kernel⟩

end ContainerAudit.Sysctl
