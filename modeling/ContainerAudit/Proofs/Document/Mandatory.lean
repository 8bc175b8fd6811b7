import ContainerAudit.Document.Load
import ContainerAudit.Proofs.Document.Declared
import Mathlib.Data.List.Induction
import Mathlib.Data.List.Nodup

/-!
# The mandatory parts that a document lacks

A loader walks through a document and puts down the dotted path of every mandatory part that is
missing.  `Document.Lacks` says which parts these are, one by one, and `MandatoryPart.position`
where the walk comes to each of them.  The walk is described by `Lists`: the texts are the paths of
the parts that satisfy a condition, each of them once and in order.  Two walks after each other list
what either of them lists, so the description of the whole walk is put together from those of its
parts.

## Key results

- `MandatoryPart.path_injective`: two parts never have the same path
- `lists_missing`: the walk lists exactly the parts that the document lacks
- `loadsAs_of_missing`: what a loader that walks through a document makes of it
- `load_isComplete`: what both loaders make of a document that was decoded
-/

namespace ContainerAudit

/-- A part that every document needs.  The elements of a list are counted from zero. -/
inductive MandatoryPart where
  | root
  | rootPath
  | process
  | processArgs
  | mountDestination (index : Nat)
  | devicePath (index : Nat)
  | deviceType (index : Nat)
deriving DecidableEq

namespace MandatoryPart

/-- The dotted path of a part. -/
def path : MandatoryPart → String
  | root => "root"
  | rootPath => "root.path"
  | process => "process"
  | processArgs => "process.args"
  | mountDestination index => s!"mounts[{index}].destination"
  | devicePath index => s!"linux.devices[{index}].path"
  | deviceType index => s!"linux.devices[{index}].type"

/-- The block of the document in which a part belongs, counted in the order of the walk. -/
def block : MandatoryPart → Nat
  | root | rootPath => 0
  | process | processArgs => 1
  | mountDestination _ => 2
  | devicePath _ | deviceType _ => 3

/-- Where in its block the walk comes to a part: at which element, and at which of its fields. -/
def place : MandatoryPart → List Nat
  | root | rootPath | process | processArgs => []
  | mountDestination index => [index, 0]
  | devicePath index => [index, 0]
  | deviceType index => [index, 1]

/-- The walk comes to one part before another. -/
def Precedes (p q : MandatoryPart) : Prop :=
  p.block < q.block ∨ p.block = q.block ∧ p.place < q.place

instance (p q : MandatoryPart) : Decidable (p.Precedes q) :=
  inferInstanceAs (Decidable (_ ∨ _))

/-- The walk comes to a part only once. -/
private theorem not_precedes_self (p : MandatoryPart) : ¬p.Precedes p := by
  rintro (h | ⟨-, h⟩)
  · exact Nat.lt_irrefl _ h
  · exact List.lt_irrefl _ h

/-- The elements of one list are met in the order of their numbers. -/
private theorem precedes_of_index_lt {p q : MandatoryPart} {i j : Nat} {s t : List Nat}
    (hblock : p.block = q.block) (hp : p.place = i :: s) (hq : q.place = j :: t) (hlt : i < j) :
    p.Precedes q := by
  refine .inr ⟨hblock, ?_⟩
  rw [hp, hq, List.cons_lt_cons_iff]
  exact .inl hlt

/-! ## Paths -/

/-- Numbers that are written alike are equal. -/
private theorem toDigits_inj {i j : Nat} (h : Nat.toDigits 10 i = Nat.toDigits 10 j) : i = j := by
  have hvalue := congrArg (fun digits => Nat.ofDigitChars 10 digits 0) h
  simpa using hvalue

/-- Paths of different blocks begin differently, and those of an element of a list end in the name
    of the field, with nothing but the number in between. -/
theorem path_injective : Function.Injective path := by
  intro p q h
  have hchars := congrArg String.toList h
  -- What is left after the common characters: equal numbers, or a path that is a type.
  cases p <;> cases q <;> unfold path at hchars <;> simp [toString] at hchars ⊢
  case mountDestination.mountDestination => exact toDigits_inj hchars
  case devicePath.devicePath => exact toDigits_inj hchars
  case deviceType.deviceType => exact toDigits_inj hchars
  case devicePath.deviceType => exact absurd (List.append_inj_right' hchars rfl) (by decide)
  case deviceType.devicePath => exact absurd (List.append_inj_right' hchars rfl) (by decide)

/-! ## Lists of paths -/

/-- The texts are the paths of the parts that satisfy a condition, each once and in the order of the
    walk. -/
def Lists (P : MandatoryPart → Prop) (texts : List String) : Prop :=
  ∃ parts : List MandatoryPart,
    texts = parts.map path ∧ (∀ p, p ∈ parts ↔ P p) ∧ parts.Pairwise Precedes

variable {P Q : MandatoryPart → Prop} {texts texts' : List String}

/-- Texts that list the parts with one property list those with an equivalent one. -/
theorem Lists.congr (h : Lists P texts) (hPQ : ∀ p, P p ↔ Q p) : Lists Q texts := by
  obtain ⟨parts, rfl, hmem, horder⟩ := h
  exact ⟨parts, rfl, fun p => (hmem p).trans (hPQ p), horder⟩

private theorem lists_nil (h : ∀ p, ¬P p) : Lists P [] :=
  ⟨[], rfl, fun p => by simp [h p], .nil⟩

private theorem lists_path (p : MandatoryPart) : Lists (· = p) [p.path] :=
  ⟨[p], rfl, fun _ => List.mem_singleton, List.pairwise_singleton _ _⟩

/-- Two walks after each other list what either of them lists. -/
theorem Lists.append (h : Lists P texts) (h' : Lists Q texts')
    (hprecedes : ∀ p q, P p → Q q → p.Precedes q) :
    Lists (fun p => P p ∨ Q p) (texts ++ texts') := by
  obtain ⟨parts, rfl, hmem, horder⟩ := h
  obtain ⟨parts', rfl, hmem', horder'⟩ := h'
  refine ⟨parts ++ parts', by rw [List.map_append], fun p => ?_, ?_⟩
  · rw [List.mem_append, hmem, hmem']
  · rw [List.pairwise_append]
    exact ⟨horder, horder', fun p hp q hq => hprecedes p q ((hmem p).mp hp) ((hmem' q).mp hq)⟩

/-- The path of a field of an element of a list. -/
private theorem fieldPath_elementPath (list : String) (index : Nat) (name : String) :
    fieldPath (elementPath list index) name = s!"{list}[{index}].{name}" := by
  have hne : (elementPath list index).isEmpty = false := by simp [elementPath]
  rw [fieldPath, hne]
  simp [elementPath, ← String.toList_inj, toString]

/-- A field is listed if it is missing. -/
private theorem lists_missingField {parent name : String} {p : MandatoryPart}
    (hpath : fieldPath parent name = p.path) (missing : Bool) :
    Lists (fun q => q = p ∧ missing = true) (missingField parent name missing) := by
  unfold missingField
  cases missing with
  | false => exact lists_nil (by simp)
  | true =>
    rw [if_pos rfl, hpath]
    exact (lists_path p).congr (by simp)

/-- What is listed of each element of a list, the elements one after another. -/
private theorem lists_missingOfEach {α : Type} {parent name : String}
    {missing : String → α → List String} {P : Nat → α → MandatoryPart → Prop}
    (hitem : ∀ index item,
      Lists (P index item) (missing (elementPath (fieldPath parent name) index) item))
    (hprecedes : ∀ i j a b p q, i < j → P i a p → P j b q → p.Precedes q) (items : List α) :
    Lists (fun p => ∃ index item, items[index]? = some item ∧ P index item p)
      (missingOfEach missing items parent name) := by
  -- Induction from the end, for the numbers are counted from the front.
  induction items using List.reverseRecOn with
  | nil => exact lists_nil (by simp)
  | append_singleton before last ih =>
    have hwalk : missingOfEach missing (before ++ [last]) parent name =
        missingOfEach missing before parent name ++
          missing (elementPath (fieldPath parent name) before.length) last := by
      simp [missingOfEach, List.zipIdx_append]
    -- The last element has the number of those before it.
    have hlast (index : Nat) (item : α) : (before ++ [last])[index]? = some item ↔
        before[index]? = some item ∨ index = before.length ∧ item = last := by
      grind
    rw [hwalk]
    refine (ih.append (hitem before.length last) ?_).congr fun p => ?_
    · rintro p q ⟨index, item, hindex, hp⟩ hq
      have hlt : index < before.length := (List.getElem?_eq_some_iff.mp hindex).1
      exact hprecedes _ _ _ _ p q hlt hp hq
    · simp only [hlast]
      constructor
      · rintro (⟨index, item, hindex, hp⟩ | hp)
        · exact ⟨index, item, .inl hindex, hp⟩
        · exact ⟨_, _, .inr ⟨rfl, rfl⟩, hp⟩
      · rintro ⟨index, item, hindex | ⟨rfl, rfl⟩, hp⟩
        · exact .inl ⟨index, item, hindex, hp⟩
        · exact .inr hp

end MandatoryPart

namespace Document

open MandatoryPart
  (Lists fieldPath_elementPath lists_missingField lists_missingOfEach lists_path)

/-! ## What a document lacks -/

/-- A document lacks a part.  Of a block or an element that is not there, no field is missing. -/
def Lacks (d : Document) : MandatoryPart → Prop
  | .root => d.root = none
  | .rootPath => ∃ r, d.root = some r ∧ r.path = ""
  | .process => d.process = none
  | .processArgs => ∃ p, d.process = some p ∧ p.args = []
  | .mountDestination index => ∃ m, d.mounts[index]? = some m ∧ m.destination = ""
  | .devicePath index => ∃ v, d.declaredDevices[index]? = some v ∧ v.path = ""
  | .deviceType index => ∃ v, d.declaredDevices[index]? = some v ∧ v.type = ""

/-- A document has all its mandatory parts. -/
structure IsComplete (d : Document) : Prop where
  root : ∃ r, d.root = some r ∧ r.path ≠ ""
  process : ∃ p, d.process = some p ∧ p.args ≠ []
  mounts : ∀ m ∈ d.mounts, m.destination ≠ ""
  devices : ∀ v ∈ d.declaredDevices, v.path ≠ "" ∧ v.type ≠ ""

/-- A document that has all its mandatory parts lacks none, and the other way round. -/
private theorem isComplete_iff {d : Document} : d.IsComplete ↔ ∀ p, ¬d.Lacks p := by
  constructor
  · -- Each part is there, and so is each of its fields.
    intro h p hlacks
    obtain ⟨r, hr, hroot⟩ := h.root
    obtain ⟨process, hp, hargs⟩ := h.process
    cases p with
    | root => simp [Lacks, hr] at hlacks
    | rootPath => simp [Lacks, hr, hroot] at hlacks
    | process => simp [Lacks, hp] at hlacks
    | processArgs => simp [Lacks, hp, hargs] at hlacks
    | mountDestination index =>
      obtain ⟨m, hm, hdestination⟩ := hlacks
      exact h.mounts m (List.mem_of_getElem? hm) hdestination
    | devicePath index =>
      obtain ⟨v, hv, hpath⟩ := hlacks
      exact (h.devices v (List.mem_of_getElem? hv)).1 hpath
    | deviceType index =>
      obtain ⟨v, hv, htype⟩ := hlacks
      exact (h.devices v (List.mem_of_getElem? hv)).2 htype
  · -- Each condition forbids some of the parts that could be lacking.
    intro h
    constructor
    · cases hr : d.root with
      | none => exact absurd hr (h .root)
      | some r => exact ⟨r, rfl, fun hpath => h .rootPath ⟨r, hr, hpath⟩⟩
    · cases hp : d.process with
      | none => exact absurd hp (h .process)
      | some process => exact ⟨process, rfl, fun hargs => h .processArgs ⟨process, hp, hargs⟩⟩
    · intro m hm hdestination
      obtain ⟨index, hindex⟩ := List.getElem?_of_mem hm
      exact h (.mountDestination index) ⟨m, hindex, hdestination⟩
    · intro v hv
      obtain ⟨index, hindex⟩ := List.getElem?_of_mem hv
      exact ⟨fun hpath => h (.devicePath index) ⟨v, hindex, hpath⟩,
        fun htype => h (.deviceType index) ⟨v, hindex, htype⟩⟩

/-! ## The walk through a document -/

/-- The walk through the root block: the block itself or its path. -/
private theorem lists_missing_root (d : Document) :
    Lists (fun p => p.block = 0 ∧ d.Lacks p)
      (missingOfBlock RootBlock.missing d.root "" "root") := by
  cases hr : d.root with
  | none =>
    refine (lists_path .root).congr fun p => ?_
    cases p <;> simp [MandatoryPart.block, Lacks, hr]
  | some r =>
    refine (lists_missingField (p := .rootPath) rfl r.path.isEmpty).congr fun p => ?_
    cases p <;> simp [MandatoryPart.block, Lacks, hr]

/-- The walk through the process block: the block itself or its arguments. -/
private theorem lists_missing_process (d : Document) :
    Lists (fun p => p.block = 1 ∧ d.Lacks p)
      (missingOfBlock Process.missing d.process "" "process") := by
  cases hp : d.process with
  | none =>
    refine (lists_path .process).congr fun p => ?_
    cases p <;> simp [MandatoryPart.block, Lacks, hp]
  | some process =>
    refine (lists_missingField (p := .processArgs) rfl process.args.isEmpty).congr fun p => ?_
    cases p <;> simp [MandatoryPart.block, Lacks, hp]

/-- The walk through the mounts: the destination of each. -/
private theorem lists_missing_mounts (d : Document) :
    Lists (fun p => p.block = 2 ∧ d.Lacks p)
      (missingOfEach Mount.missing d.mounts "" "mounts") := by
  have hitem (index : Nat) (m : Mount) :
      Lists (fun p => p = .mountDestination index ∧ m.destination.isEmpty = true)
        (m.missing (elementPath (fieldPath "" "mounts") index)) := by
    refine lists_missingField ((fieldPath_elementPath "mounts" index _).trans ?_) _
    unfold MandatoryPart.path
    simp [← String.toList_inj, toString]
  refine (lists_missingOfEach hitem ?_ d.mounts).congr fun p => ?_
  · -- Parts of different mounts are in the order of the mounts.
    rintro i j a b p q hlt ⟨rfl, -⟩ ⟨rfl, -⟩
    exact MandatoryPart.precedes_of_index_lt rfl rfl rfl hlt
  · cases p <;> simp [MandatoryPart.block, Lacks]

/-- The walk through the devices: the path and the type of each. -/
private theorem lists_missing_devices (d : Document) :
    Lists (fun p => p.block = 3 ∧ d.Lacks p)
      (missingOfEach Device.missing d.declaredDevices "linux" "devices") := by
  -- Of each device, its path comes before its type.
  have hitem (index : Nat) (v : Device) :
      Lists (fun p => p = .devicePath index ∧ v.path.isEmpty = true ∨
          p = .deviceType index ∧ v.type.isEmpty = true)
        (v.missing (elementPath (fieldPath "linux" "devices") index)) := by
    have hpath (name : String) := fieldPath_elementPath "linux.devices" index name
    refine Lists.append (lists_missingField ((hpath _).trans ?_) _)
      (lists_missingField ((hpath _).trans ?_) _) ?_
    · unfold MandatoryPart.path
      simp [← String.toList_inj, toString]
    · unfold MandatoryPart.path
      simp [← String.toList_inj, toString]
    · rintro p q ⟨rfl, -⟩ ⟨rfl, -⟩
      exact .inr ⟨rfl, List.cons_lt_cons_iff.mpr (.inr ⟨rfl, by decide⟩)⟩
  refine (lists_missingOfEach hitem ?_ d.declaredDevices).congr fun p => ?_
  · rintro i j a b p q hlt (⟨rfl, -⟩ | ⟨rfl, -⟩) (⟨rfl, -⟩ | ⟨rfl, -⟩) <;>
      exact MandatoryPart.precedes_of_index_lt rfl rfl rfl hlt
  · cases p <;> simp [MandatoryPart.block, Lacks]

/-- A document without the block for Linux declares no devices that could lack anything. -/
private theorem missing_eq (d : Document) :
    d.missing = missingOfBlock RootBlock.missing d.root "" "root" ++
      missingOfBlock Process.missing d.process "" "process" ++
      missingOfEach Mount.missing d.mounts "" "mounts" ++
      missingOfEach Device.missing d.declaredDevices "linux" "devices" := by
  unfold missing missingUnder declaredDevices
  cases d.linux <;> rfl

/-- The walk lists the parts that the document lacks. -/
theorem lists_missing (d : Document) : Lists d.Lacks d.missing := by
  have hroot := lists_missing_root d
  have hprocess := lists_missing_process d
  have hmounts := lists_missing_mounts d
  have hdevices := lists_missing_devices d
  rw [missing_eq]
  -- The blocks are numbered in the order in which the walk comes to them.
  refine (((hroot.append hprocess ?_).append hmounts ?_).append hdevices ?_).congr fun p => ?_
  · intro p q hp hq
    exact .inl (by omega)
  · intro p q hp hq
    exact .inl (by omega)
  · intro p q hp hq
    exact .inl (by omega)
  · cases p <;> simp [MandatoryPart.block]

/-- Nothing is missing exactly if the document has all its mandatory parts. -/
private theorem missing_eq_nil_iff {d : Document} : d.missing = [] ↔ d.IsComplete := by
  obtain ⟨parts, hparts, hmem, -⟩ := lists_missing d
  rw [hparts, List.map_eq_nil_iff, List.eq_nil_iff_forall_not_mem, isComplete_iff]
  exact forall_congr' fun p => not_congr (hmem p)

/-! ## Loading -/

/-- What a loader makes of a document that it decoded. -/
structure LoadsAs (d : Document) (loaded : Except LoadError Document) : Prop where
  /-- The document is loaded exactly if it has all its mandatory parts. -/
  eq_ok_iff : loaded = .ok d ↔ d.IsComplete
  /-- If it has not, the error names the parts that it lacks by their paths, each once and in the
      order of the walk. -/
  of_not_isComplete : ¬d.IsComplete → ∃ parts : List MandatoryPart,
    loaded = .error (.missing (parts.map MandatoryPart.path)) ∧ (∀ p, p ∈ parts ↔ d.Lacks p) ∧
      parts.Pairwise MandatoryPart.Precedes ∧ (parts.map MandatoryPart.path).Nodup

/-- A loader that gives the document back unless something is missing. -/
theorem loadsAs_of_missing {d : Document} {loaded : Except LoadError Document}
    (h : loaded = if d.missing.isEmpty then .ok d else .error (.missing d.missing)) :
    LoadsAs d loaded := by
  have hempty : d.missing.isEmpty = true ↔ d.IsComplete := by
    rw [List.isEmpty_iff, missing_eq_nil_iff]
  constructor
  · rw [h, ← hempty]
    split <;> simp [*]
  · intro hnot
    obtain ⟨parts, hparts, hmem, horder⟩ := lists_missing d
    -- What is in order is distinct, and so are the paths.
    have hdistinct : parts.Nodup := horder.imp fun hpq heq => by
      subst heq
      exact MandatoryPart.not_precedes_self _ hpq
    refine ⟨parts, ?_, hmem, horder, List.Nodup.map MandatoryPart.path_injective hdistinct⟩
    rw [h, if_neg (mt hempty.mp hnot), hparts]

/-- A document that was decoded from a text is given back unless something is missing. -/
theorem fromJson_of_decode {json : String} {d : Document} (hd : decode (Text.encode json) = .ok d) :
    fromJson json = if d.missing.isEmpty then .ok d else .error (.missing d.missing) := by
  simp only [fromJson, hd]
  rfl

/-- So is one that was decoded from the configuration file. -/
theorem ofOpening_of_decode {bytes : Text.Bytes} {d : Document} (hd : decode bytes = .ok d)
    (path : Text.Bytes) :
    ofOpening path (.contents bytes) =
      if d.missing.isEmpty then .ok d else .error (.missing d.missing) := by
  simp only [ofOpening, hd]
  rfl

/-- A document that was decoded is loaded exactly if it has all its mandatory parts, and else the
    error names those that it lacks.  It does not matter for this whether it was decoded from a text
    or from the configuration file of a bundle: both loaders make the same of the same text. -/
theorem load_isComplete (d : Document) :
    (∀ json, decode (Text.encode json) = .ok d → LoadsAs d (fromJson json)) ∧
      (∀ (t : FileTree) (directory bytes : Text.Bytes),
        t.openFile (pathIn directory) = .contents bytes → decode bytes = .ok d →
          LoadsAs d (loadFrom t directory)) ∧
      ∀ (t : FileTree) (directory : Text.Bytes) (json : String),
        t.openFile (pathIn directory) = .contents (Text.encode json) →
          loadFrom t directory = fromJson json := by
  refine ⟨fun json hd => ?_, fun t directory bytes hfile hd => ?_, fun t directory json hfile => ?_⟩
  · exact loadsAs_of_missing (fromJson_of_decode hd)
  · rw [loadFrom, hfile]
    exact loadsAs_of_missing (ofOpening_of_decode hd _)
  · rw [loadFrom, hfile]
    rfl

/-- The configuration file of a document that was not finished. -/
def unfinishedText : String :=
  "\x7b\"root\": \x7b\"path\": \"\"\x7d, \"process\": \x7b\"args\": []\x7d, " ++
    "\"mounts\": [\x7b\"destination\": \"/proc\"\x7d, \x7b\"type\": \"tmpfs\"\x7d], " ++
    "\"linux\": \x7b\"devices\": [\x7b\"path\": \"/dev/fuse\"\x7d, \x7b\x7d]\x7d\x7d"

/-- The document in this file. -/
def unfinishedDocument : Document where
  root := some {}
  process := some {}
  mounts := [{ destination := "/proc" }, { fstype := "tmpfs" }]
  linux := some { devices := [{ path := "/dev/fuse" }, {}] }

/-- The bundle of the unfinished document lies in the working directory. -/
def unfinishedBundle : FileTree where
  nodes := [([], .directory 0o755),
    ([Text.encode "config.json"], .regular 0o644 (Text.encode unfinishedText))]
  cwd := []

/-- The unfinished document lacks a part of every block, and of its second device both fields. -/
theorem load_unfinishedDocument :
    decode (Text.encode unfinishedText) = .ok unfinishedDocument ∧
      unfinishedBundle.openFile (pathIn []) = .contents (Text.encode unfinishedText) ∧
      LoadsAs unfinishedDocument (fromJson unfinishedText) ∧
      LoadsAs unfinishedDocument (loadFrom unfinishedBundle []) ∧
      loadFrom unfinishedBundle [] = fromJson unfinishedText ∧ ¬unfinishedDocument.IsComplete := by
  have hd : decode (Text.encode unfinishedText) = .ok unfinishedDocument := rfl
  have hfile : unfinishedBundle.openFile (pathIn []) = .contents (Text.encode unfinishedText) := by
    decide +kernel
  have hnot : ¬unfinishedDocument.IsComplete := fun h =>
    isComplete_iff.mp h .rootPath ⟨_, rfl, rfl⟩
  obtain ⟨hjson, hbundle, hagree⟩ := load_isComplete unfinishedDocument
  exact ⟨hd, hfile, hjson _ hd, hbundle _ _ _ hfile hd, hagree _ _ _ hfile, hnot⟩

end Document

end ContainerAudit
