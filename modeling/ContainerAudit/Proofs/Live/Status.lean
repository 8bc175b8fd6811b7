import ContainerAudit.Live.Status
import ContainerAudit.Proofs.List
import ContainerAudit.Proofs.Live.Capability
import ContainerAudit.Proofs.Text.Digits
import ContainerAudit.Proofs.Text.Trim

/-!
# The capability sets in a status of any lines

The status of a process has a line for each capability set among any number of other lines.  The
words of the sets are read whatever the order of the lines is and whatever else stands there.  A set
whose line is missing or holds no word makes the whole status unreadable; of several such sets, the
first one that is reported is named, wherever its line stands.

## Key results

- `statusValue?_eq_some_iff`: what stands behind the label of a set
- `ofStatus_eq_ok_iff`: when a status is read, and what is read in it
- `ofStatus_lines`: the status that the kernel writes, and what is wrong with any other
-/

namespace ContainerAudit

open Text (HasLines IsNumber Denotes)

/-! ## Labels -/

namespace CapabilitySet

/-- All labels are of the same length, so none begins with another one. -/
private theorem length_statusLabel (set : CapabilitySet) : set.statusLabel.toList.length = 7 := by
  cases set <;> decide

/-- No two sets have the same label. -/
theorem statusLabel_injective : Function.Injective statusLabel := by
  intro a b
  cases a <;> cases b <;> decide

/-- A line begins with the label of at most one set. -/
private theorem statusLabel_append_inj {a b : CapabilitySet} {v w : List Char}
    (h : a.statusLabel.toList ++ v = b.statusLabel.toList ++ w) : a = b ∧ v = w := by
  have hlength : a.statusLabel.toList.length = b.statusLabel.toList.length := by
    rw [length_statusLabel, length_statusLabel]
  obtain ⟨hlabel, hrest⟩ := List.append_inj h hlength
  exact ⟨statusLabel_injective (String.toList_inj.mp hlabel), hrest⟩

end CapabilitySet

/-! ## The lines of a status -/

/-- A line of a status: that of a set, with what stands behind its label, or any other. -/
inductive StatusLine where
  | mask (set : CapabilitySet) (value : List Char)
  | other (text : List Char)
deriving DecidableEq

/-- The text of a line. -/
def StatusLine.text : StatusLine → List Char
  | mask set value => set.statusLabel.toList ++ value
  | other text => text

/-- The set of a line. -/
def StatusLine.set? : StatusLine → Option CapabilitySet
  | mask set _ => some set
  | other _ => none

/-- A status consists of lines. -/
structure IsStatus (lines : List StatusLine) (status : String) : Prop where
  hasLines : HasLines status.toList (lines.map StatusLine.text)
  /-- A line that begins with the label of a set is the line of that set. -/
  other : ∀ text, .other text ∈ lines → ∀ set : CapabilitySet, ¬set.statusLabel.toList <+: text
  /-- A set has no two lines that differ. -/
  mask : ∀ set v w, .mask set v ∈ lines → .mask set w ∈ lines → v = w

variable {lines : List StatusLine} {status : String}

/-- Whether a status consists of lines is seen from these. -/
private theorem isStatus_iff : IsStatus lines status ↔
    Text.lines status.toList = lines.map StatusLine.text ∧
      (∀ line ∈ lines, line.set? = none →
        ∀ set ∈ CapabilitySet.all, ¬set.statusLabel.toList <+: line.text) ∧
      ∀ a ∈ lines, ∀ b ∈ lines, a.set? = b.set? → a.set? = none ∨ a = b := by
  -- Over lines with their sets instead of the two kinds of lines, all three parts are finite.
  constructor
  · rintro ⟨hlines, hother, hmask⟩
    refine ⟨hlines.lines_eq, fun line hline hset set _ => ?_, fun a ha b hb hset => ?_⟩
    · cases line with
      | mask => cases hset
      | other text => exact hother text hline set
    · cases a with
      | other => exact .inl rfl
      | mask set v =>
        cases b with
        | other => cases hset
        | mask set' w =>
          obtain rfl := Option.some.inj hset
          exact .inr (by rw [hmask set v w ha hb])
  · rintro ⟨hlines, hother, hmask⟩
    refine ⟨Text.hasLines_iff.mpr hlines,
      fun text htext set => hother _ htext rfl set (CapabilitySet.mem_all set),
      fun set v w hv hw => ?_⟩
    obtain hnone | heq := hmask _ hv _ hw rfl
    · cases hnone
    · exact (StatusLine.mask.inj heq).2

instance : Decidable (IsStatus lines status) := decidable_of_iff _ isStatus_iff.symm

/-- What is found for a set is what stands on its line. -/
theorem IsStatus.statusValue?_eq_some_iff (h : IsStatus lines status) {set : CapabilitySet}
    {value : List Char} :
    statusValue? (Text.lines status.toList) set.statusLabel = some value ↔
      ∃ v, .mask set v ∈ lines ∧ Text.trim v = value := by
  -- A line on which something is found is that of the set.
  have hfound {v : List Char} (hv : (lines.map StatusLine.text).findSome?
      (set.statusLabel.toList.isPrefixOf? ·) = some v) : .mask set v ∈ lines := by
    obtain ⟨_, hmem, hprefix⟩ := List.exists_of_findSome?_eq_some hv
    obtain ⟨line, hline, rfl⟩ := List.mem_map.mp hmem
    have htext := (List.isPrefixOf?_eq_some_iff_append_eq.mp hprefix).symm
    cases line with
    | mask set' w =>
      obtain ⟨rfl, rfl⟩ := CapabilitySet.statusLabel_append_inj htext
      exact hline
    | other text => exact absurd ⟨v, htext.symm⟩ (h.other text hline set)
  rw [h.hasLines.lines_eq, statusValue?, Option.map_eq_some_iff]
  constructor
  · rintro ⟨v, hv, rfl⟩
    exact ⟨v, hfound hv, rfl⟩
  · rintro ⟨v, hmem, rfl⟩
    cases hfind : (lines.map StatusLine.text).findSome?
        (set.statusLabel.toList.isPrefixOf? ·) with
    | none =>
      have hnone := List.findSome?_eq_none_iff.mp hfind _ (List.mem_map_of_mem hmem)
      rw [StatusLine.text, List.isPrefixOf?_eq_some_iff_append_eq.mpr rfl] at hnone
      cases hnone
    | some w => exact ⟨w, rfl, by rw [h.mask set v w hmem (hfound hfind)]⟩

/-- Nothing is found for a set exactly if it has no line. -/
private theorem IsStatus.statusValue?_eq_none_iff (h : IsStatus lines status)
    {set : CapabilitySet} :
    statusValue? (Text.lines status.toList) set.statusLabel = none ↔ ∀ v, .mask set v ∉ lines := by
  rw [Option.eq_none_iff_forall_not_mem]
  simp only [Option.mem_def, h.statusValue?_eq_some_iff]
  constructor
  · exact fun hnone v hv => hnone _ ⟨v, hv, rfl⟩
  · rintro hnone _ ⟨v, hv, -⟩
    exact hnone v hv

/-! ## One set -/

/-- The lines give a set its word.  Without a line the ambient set is empty. -/
inductive Records (lines : List StatusLine) : CapabilitySet → UInt64 → Prop where
  | written {set : CapabilitySet} {value : List Char} {mask : UInt64} (h : .mask set value ∈ lines)
    (hvalue : IsNumber 16 (2 ^ 64) (Text.trim value) mask.toNat) : Records lines set mask
  | absent (h : ∀ value, .mask .ambient value ∉ lines) : Records lines .ambient 0

/-- The lines give a set no word, and the error names the set. -/
inductive Complains (lines : List StatusLine) : CapabilitySet → IoError → Prop where
  | missing {set : CapabilitySet} (hset : set ≠ .ambient) (h : ∀ value, .mask set value ∉ lines) :
    Complains lines set ⟨.invalidData, s!"{set.statusLabel} missing from process status"⟩
  | unreadable {set : CapabilitySet} {value : List Char} (h : .mask set value ∈ lines)
    (hvalue : ∀ n, ¬IsNumber 16 (2 ^ 64) (Text.trim value) n) (reason : Text.NumberError) :
    Complains lines set ⟨.invalidData,
      s!"invalid {set.statusLabel} value '{String.ofList (Text.trim value)}': {reason.message}"⟩

namespace HeldCapabilities

/-- A word is read in hexadecimal digits if these denote a number of 64 bits. -/
private theorem readNat_hex_eq_ok_iff {word : List Char} {n : Nat} :
    Text.readNat 16 UInt64.size word = .ok n ↔ IsNumber 16 (2 ^ 64) word n :=
  Text.readNat_eq_ok_iff (by decide) (by decide)

/-- The word that is read for a set is the one that the lines give it. -/
private theorem statusMask_eq_ok_iff (h : IsStatus lines status) {set : CapabilitySet}
    {mask : UInt64} :
    statusMask (Text.lines status.toList) set = .ok mask ↔ Records lines set mask := by
  unfold statusMask
  constructor
  · -- A word was read from the line of the set, or the ambient set has no line.
    intro hmask
    split at hmask
    · rename_i value hvalue
      obtain ⟨v, hv, rfl⟩ := h.statusValue?_eq_some_iff.mp hvalue
      split at hmask
      · rename_i n hn
        have hnumber := readNat_hex_eq_ok_iff.mp hn
        obtain rfl := Except.ok.inj hmask
        refine .written hv ?_
        rwa [UInt64.toNat_ofNat_of_lt' hnumber.lt]
      · cases hmask
    · rename_i hnone
      split at hmask
      · rename_i hset
        subst hset
        obtain rfl := Except.ok.inj hmask
        exact .absent (h.statusValue?_eq_none_iff.mp hnone)
      · cases hmask
  · intro hrecords
    cases hrecords with
    | written hv hvalue =>
      have hfind := h.statusValue?_eq_some_iff.mpr ⟨_, hv, rfl⟩
      simp [hfind, readNat_hex_eq_ok_iff.mpr hvalue]
    | absent hnone => simp [h.statusValue?_eq_none_iff.mpr hnone]

/-- Where no word is read for a set, its line is missing or unreadable. -/
private theorem complains_of_statusMask (h : IsStatus lines status) {set : CapabilitySet}
    {e : IoError}
    (he : statusMask (Text.lines status.toList) set = .error e) : Complains lines set e := by
  unfold statusMask at he
  split at he
  · rename_i value hvalue
    obtain ⟨v, hv, rfl⟩ := h.statusValue?_eq_some_iff.mp hvalue
    split at he
    · cases he
    · rename_i reason hreason
      obtain rfl := Except.error.inj he
      refine .unreadable hv (fun n hn => ?_) reason
      rw [readNat_hex_eq_ok_iff.mpr hn] at hreason
      cases hreason
  · rename_i hnone
    split at he
    · cases he
    · rename_i hset
      obtain rfl := Except.error.inj he
      exact .missing hset (h.statusValue?_eq_none_iff.mp hnone)

/-- A set that is complained about has no word. -/
private theorem not_records_of_complains (h : IsStatus lines status) {set : CapabilitySet}
    {e : IoError}
    (hcomplains : Complains lines set e) (mask : UInt64) : ¬Records lines set mask := by
  intro hrecords
  cases hcomplains with
  | missing hset hnone =>
    cases hrecords with
    | written hv _ => exact hnone _ hv
    | absent _ => exact hset rfl
  | unreadable hv hvalue _ =>
    cases hrecords with
    | written hw hnumber => exact hvalue _ (h.mask _ _ _ hv hw ▸ hnumber)
    | absent hnone => exact hnone _ hv

/-! ## The whole status -/

/-- A status is read set by set, and then the words are put in their places. -/
private theorem ofStatus_eq_map (status : String) (lastCap : UInt32) :
    ofStatus status lastCap =
      (CapabilitySet.all.mapM (statusMask (Text.lines status.toList))).map fun masks =>
        (CapabilitySet.all.zip masks).foldl (fun held p => held.setMask p.1 p.2)
          (empty lastCap) := by
  rw [ofStatus, List.foldlM_map_eq]

/-- A status is read exactly if each set has a word, and these are the words that are read. -/
theorem ofStatus_eq_ok_iff (h : IsStatus lines status) {lastCap : UInt32}
    {held : HeldCapabilities} :
    ofStatus status lastCap = .ok held ↔
      held.lastCap = lastCap ∧ ∀ set, Records lines set (held.mask set) := by
  have hwords (masks : List UInt64) :
      CapabilitySet.all.mapM (statusMask (Text.lines status.toList)) = .ok masks ↔
        List.Forall₂ (Records lines) CapabilitySet.all masks := by
    simp only [List.mapM_eq_ok_iff, statusMask_eq_ok_iff h]
  rw [ofStatus_eq_map]
  constructor
  · intro hheld
    cases hmasks : CapabilitySet.all.mapM (statusMask (Text.lines status.toList)) with
    | error e =>
      rw [hmasks] at hheld
      cases hheld
    | ok masks =>
      rw [hmasks] at hheld
      obtain rfl := Except.ok.inj hheld
      have hrecords := (hwords masks).mp hmasks
      -- The words are as many as the sets, and each is put where it belongs.
      obtain _ | ⟨hbounding, _ | ⟨heffective, _ | ⟨hinheritable, _ | ⟨hpermitted,
        _ | ⟨hambient, _ | _⟩⟩⟩⟩⟩ := hrecords
      refine ⟨rfl, fun set => ?_⟩
      cases set <;> simpa [CapabilitySet.all, mask_setMask]
  · rintro ⟨rfl, hrecords⟩
    have hmasks := (hwords (CapabilitySet.all.map held.mask)).mpr
      (List.forall₂_map_right_iff.mpr (List.forall₂_same.mpr fun set _ => hrecords set))
    rw [hmasks]
    refine congrArg Except.ok (ext_mask rfl fun set => ?_)
    cases set <;> simp [CapabilitySet.all, mask_setMask]

/-- Where some set has no word, the first such set is complained about. -/
private theorem ofStatus_complains (h : IsStatus lines status) (lastCap : UInt32)
    {set : CapabilitySet}
    {e : IoError} (hset : Complains lines set e) :
    ∃ before first after e', CapabilitySet.all = before ++ first :: after ∧
      (∀ earlier ∈ before, ∀ e, ¬Complains lines earlier e) ∧
      ofStatus status lastCap = .error e' ∧ Complains lines first e' := by
  cases hmasks : CapabilitySet.all.mapM (statusMask (Text.lines status.toList)) with
  | ok masks =>
    -- If every set were read, the one that is complained about would have a word.
    obtain ⟨held, hheld⟩ : ∃ held, ofStatus status lastCap = .ok held :=
      ⟨_, by rw [ofStatus_eq_map, hmasks]; rfl⟩
    exact absurd (((ofStatus_eq_ok_iff h).mp hheld).2 set) (not_records_of_complains h hset _)
  | error e' =>
    obtain ⟨before, first, after, hall, hbefore, hfirst⟩ := List.mapM_eq_error_iff.mp hmasks
    refine ⟨before, first, after, e', hall, ?_, ?_, complains_of_statusMask h hfirst⟩
    · intro earlier hearlier e hcomplains
      obtain ⟨mask, hmask⟩ := hbefore earlier hearlier
      exact not_records_of_complains h hcomplains mask ((statusMask_eq_ok_iff h).mp hmask)
    · rw [ofStatus_eq_map, hmasks]
      rfl

/-! ## What the kernel writes -/

/-- The word of a set in 16 hexadecimal digits. -/
def wordDigits (mask : UInt64) : List Char := (Nat.toDigits 16 mask.toNat).leftpad 16 '0'

/-- The word of a set takes 16 digits, whatever it is. -/
private theorem length_wordDigits (mask : UInt64) : (wordDigits mask).length = 16 := by
  have hle : (Nat.toDigits 16 mask.toNat).length ≤ 16 :=
    (Nat.length_toDigits_le_iff (by decide) (by decide)).mpr mask.toNat_lt
  rw [wordDigits, List.length_leftpad]
  omega

/-- The digits that are written for a word denote it. -/
private theorem isNumber_wordDigits (mask : UInt64) :
    IsNumber 16 (2 ^ 64) (wordDigits mask) mask.toNat := by
  have hdenotes := (Text.denotes_toDigits (by decide) mask.toNat).pad (by decide : 0 < 16) 16
  refine .plain (fun hnil => ?_) hdenotes mask.toNat_lt
  have hlength := length_wordDigits mask
  rw [hnil] at hlength
  cases hlength

/-- A tab before the digits does not change what the lines give the set. -/
private theorem records_wordDigits {set : CapabilitySet} {mask : UInt64}
    (h : .mask set ('\t' :: wordDigits mask) ∈ lines) : Records lines set mask := by
  have hnumber := isNumber_wordDigits mask
  have htab : Text.isBlank '\t' = true := by decide
  have htrim := Text.trim_append_of_isWord (List.forall_mem_singleton.mpr htab)
    (hnumber.isWord (by decide)) (List.forall_mem_nil _)
  rw [List.append_nil, List.singleton_append] at htrim
  exact .written h (htrim.symm ▸ hnumber)

/-- The capability sets with given words. -/
def ofMasks (lastCap : UInt32) (masks : CapabilitySet → UInt64) : HeldCapabilities :=
  CapabilitySet.all.foldl (fun held set => held.setMask set (masks set)) (empty lastCap)

/-- Each set has the word that it was given. -/
@[simp] theorem mask_ofMasks (lastCap : UInt32) (masks : CapabilitySet → UInt64)
    (set : CapabilitySet) : (ofMasks lastCap masks).mask set = masks set := by
  cases set <;> simp [ofMasks, CapabilitySet.all, mask_setMask]

/-- The words that the kernel writes are read back, in any order of the lines and with any others
    between them; without its line the ambient set is empty.  Where another set has no line, or any
    set has something else on its line than a word, the error names the first such set in the order
    in which the sets are reported. -/
theorem ofStatus_lines (h : IsStatus lines status) (lastCap : UInt32) :
    (∀ masks : CapabilitySet → UInt64,
        (∀ set, .mask set ('\t' :: wordDigits (masks set)) ∈ lines) →
        ofStatus status lastCap = .ok (ofMasks lastCap masks)) ∧
      (∀ masks : CapabilitySet → UInt64,
        (∀ set, set ≠ .ambient → .mask set ('\t' :: wordDigits (masks set)) ∈ lines) →
        (∀ value, .mask .ambient value ∉ lines) →
        ofStatus status lastCap = .ok ((ofMasks lastCap masks).setMask .ambient 0)) ∧
      ((∃ set e, Complains lines set e) →
        ∃ before first after e, CapabilitySet.all = before ++ first :: after ∧
          (∀ earlier ∈ before, ∀ e, ¬Complains lines earlier e) ∧
          ofStatus status lastCap = .error e ∧ Complains lines first e) := by
  -- Lines of digits give each set its word, and what gives every set a word is read.
  refine ⟨fun masks hmasks => ?_, fun masks hmasks hambient => ?_, ?_⟩
  · rw [ofStatus_eq_ok_iff h]
    refine ⟨rfl, fun set => ?_⟩
    rw [mask_ofMasks]
    exact records_wordDigits (hmasks set)
  · rw [ofStatus_eq_ok_iff h]
    refine ⟨rfl, fun set => ?_⟩
    by_cases hset : set = .ambient
    · subst hset
      exact .absent hambient
    · rw [mask_setMask, if_neg (Ne.symm hset), mask_ofMasks]
      exact records_wordDigits (hmasks set hset)
  · rintro ⟨set, e, hset⟩
    exact ofStatus_complains h lastCap hset

/-- Lines in another order than the sets, with a carriage return at one end and no end at the last
    one, are read; so are they without the ambient set.  A number that is too large is complained
    about before a missing line of a later set. -/
theorem ofStatus_lines_unordered :
    let masks : CapabilitySet → UInt64 := fun set => if set = .bounding then 0x1ffffffffff else 0xa5
    let line (set : CapabilitySet) : StatusLine := .mask set ('\t' :: wordDigits (masks set))
    let others : List StatusLine := [line .permitted, .other [], line .bounding,
      .other "Seccomp:\t0".toList, line .inheritable, line .effective]
    let broken : List StatusLine := [.mask .ambient "none".toList,
      .mask .effective "\t10000000000000000 ".toList, .other "Cap".toList,
      .mask .bounding "\t+0A5".toList, line .inheritable]
    let rest := "CapPrm:\t00000000000000a5\n\nCapBnd:\t000001ffffffffff\nSeccomp:\t0\n" ++
      "CapInh:\t00000000000000a5\nCapEff:\t00000000000000a5"
    let full := "CapAmb:\t00000000000000a5\r\n" ++ rest
    let short := rest ++ "\n"
    let bad := "CapAmb:none\nCapEff:\t10000000000000000 \nCap\nCapBnd:\t+0A5\n" ++
      "CapInh:\t00000000000000a5\n"
    (IsStatus (line .ambient :: others) full ∧ ofStatus full 40 = .ok (ofMasks 40 masks)) ∧
      (IsStatus others short ∧
        ofStatus short 40 = .ok ((ofMasks 40 masks).setMask .ambient 0)) ∧
      IsStatus broken bad ∧ ∃ before first after e, CapabilitySet.all = before ++ first :: after ∧
        (∀ earlier ∈ before, ∀ e, ¬Complains broken earlier e) ∧
        ofStatus bad 40 = .error e ∧ Complains broken first e := by
  intro masks line others broken rest full short bad
  have hfull : IsStatus (line .ambient :: others) full := by decide +kernel
  have hshort : IsStatus others short := by decide +kernel
  have hbroken : IsStatus broken bad := by decide +kernel
  obtain ⟨hread, -, -⟩ := ofStatus_lines hfull 40
  obtain ⟨-, hambient, -⟩ := ofStatus_lines hshort 40
  obtain ⟨-, -, hcomplains⟩ := ofStatus_lines hbroken 40
  -- That some set of the broken status has no word is seen from the permitted one.
  refine ⟨⟨hfull, hread masks fun set => ?_⟩, ⟨hshort, hambient masks (fun set hset => ?_) ?_⟩,
    hbroken, hcomplains ⟨.permitted, _, .missing (by decide) ?_⟩⟩
  · cases set <;> simp [line, others]
  · cases set <;> simp [line, others] at hset ⊢
  · simp [line, others]
  · simp [line, broken]

end HeldCapabilities

end ContainerAudit
