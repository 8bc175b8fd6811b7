import ContainerAudit.Proofs.Check.Collecting
import ContainerAudit.Proofs.Live.Device
import Mathlib.Data.List.Basic

/-!
# What is found about declared devices

A declared device is compared with the file at its path.  A file that is not there or of another
kind is one finding; of any other file, each attribute that differs is one (`report`).  A pipe has
no numbers, and of the others the numbers of the kernel are made from 32 of its 64 bits, so the
declared ones may be too large or negative and then agree with no file.

## Key results

- `nodeFindings_eq_report`: what is found about a file that is there
- `report_eq_nil_iff`: the files about which nothing is found
- `devices_reported`: what is found about all devices
-/

namespace ContainerAudit

namespace Device

/-- The kind of file that a declaration asks for.  An unbuffered device is a character device. -/
def expectedKind? (d : Device) : Option DeviceKind :=
  if d.type = "c" ∨ d.type = "u" then some .char
  else if d.type = "b" then some .block
  else if d.type = "p" then some .fifo
  else none

/-- A file is what a declaration says. -/
structure Matches (d : Device) (stat : FileStat) : Prop where
  kind : d.expectedKind? = some stat.kind
  /-- The numbers of a device fit and make up the low bits of what the kernel knows. -/
  numbers : d.type = "c" ∨ d.type = "u" ∨ d.type = "b" →
    (0 ≤ d.major.toInt ∧ d.major.toInt < 2 ^ 12) ∧ (0 ≤ d.minor.toInt ∧ d.minor.toInt < 2 ^ 20) ∧
      (DeviceNumber.ofParts d.major.toUInt64 d.minor.toUInt64).toNat = stat.device.toNat % 2 ^ 32
  /-- Of a mode, the nine permission bits count. -/
  fileMode : ∀ mode ∈ d.fileMode, stat.mode.toNat % 2 ^ 9 = mode.toNat % 2 ^ 9
  uid : ∀ uid ∈ d.uid, stat.uid = uid
  gid : ∀ gid ∈ d.gid, stat.gid = gid

end Device

/-- A kind fits a declared type exactly if it is the kind that the type stands for. -/
private theorem DeviceKind.fits_iff {kind : DeviceKind} {d : Device} :
    kind.fits d.type = true ↔ d.expectedKind? = some kind := by
  unfold Device.expectedKind?
  -- No two of the words for kinds are the same.
  by_cases hchar : d.type = "c" ∨ d.type = "u"
  · rcases hchar with h | h <;> rw [h] <;> cases kind <;> decide
  · by_cases hblock : d.type = "b"
    · rw [hblock]
      cases kind <;> decide
    · by_cases hfifo : d.type = "p"
      · rw [hfifo]
        cases kind <;> decide
      · rw [if_neg hchar, if_neg hblock, if_neg hfifo]
        cases kind <;> simp_all [fits]

/-- Of the files that fit, the pipes are those for which a pipe is declared. -/
private theorem DeviceKind.eq_fifo_iff {kind : DeviceKind} {d : Device}
    (hkind : d.expectedKind? = some kind) : kind = .fifo ↔ d.type = "p" := by
  have hfits := fits_iff.mpr hkind
  constructor
  · rintro rfl
    simpa [fits] using hfits
  · intro htype
    rw [htype] at hfits
    revert hfits
    cases kind <;> decide

/-! ## Attributes -/

/-- What is compared between a declared device and a file. -/
inductive DeviceAttribute where
  | major
  | minor
  | fileMode
  | uid
  | gid
deriving DecidableEq

namespace DeviceAttribute

/-- The attributes in the order in which they are reported. -/
def all : List DeviceAttribute := [major, minor, fileMode, uid, gid]

theorem mem_all (a : DeviceAttribute) : a ∈ all := by
  cases a <;> decide

/-- How a finding calls an attribute of a device. -/
def title (d : Device) : DeviceAttribute → String
  | major => s!"device {d.path} major number"
  | minor => s!"device {d.path} minor number"
  | fileMode => s!"device {d.path} file mode"
  | uid => s!"device {d.path} uid"
  | gid => s!"device {d.path} gid"

/-- The declared value, if it is compared.  A pipe has no numbers. -/
def declared? (d : Device) : DeviceAttribute → Option Int
  | major => if d.type = "p" then none else some d.major.toInt
  | minor => if d.type = "p" then none else some d.minor.toInt
  | fileMode => d.fileMode.map fun mode => (mode.toNat % 2 ^ 9 : Nat)
  | uid => d.uid.map fun uid => uid.toNat
  | gid => d.gid.map fun gid => gid.toNat

/-- The value of a file. -/
def live (stat : FileStat) : DeviceAttribute → Int
  | major => stat.device.major.toNat
  | minor => stat.device.minor.toNat
  | fileMode => (stat.mode.toNat % 2 ^ 9 : Nat)
  | uid => stat.uid.toNat
  | gid => stat.gid.toNat

/-- A value as it is shown.  Modes are in octal. -/
def shown (value : Int) : DeviceAttribute → String
  | fileMode => Text.octal value.toNat
  | _ => toString value

/-- What is found about an attribute. -/
def disagreement? (d : Device) (stat : FileStat) (a : DeviceAttribute) : Option Finding :=
  (a.declared? d).bind fun expected =>
    if a.live stat = expected then none
    else some (.mismatch (a.title d) (a.shown expected) (a.shown (a.live stat)))

/-- Nothing is found about an attribute that is not declared, or is as declared. -/
private theorem disagreement?_eq_none_iff {d : Device} {stat : FileStat} {a : DeviceAttribute} :
    a.disagreement? d stat = none ↔ ∀ expected ∈ a.declared? d, a.live stat = expected := by
  simp [disagreement?, Option.bind_eq_none_iff]

end DeviceAttribute

namespace Check

/-- What is to be found about a declared device, given what the system says about its path. -/
def report (d : Device) : Except IoError FileStat → Findings
  | .error _ => [nodeNotFound d.path]
  | .ok stat =>
    if d.expectedKind? = some stat.kind then
      DeviceAttribute.all.filterMap (DeviceAttribute.disagreement? d stat)
    else [.mismatch s!"device {d.path} type" d.type stat.kind.name]

section File

variable {d : Device} {stat : FileStat}

/-! ## Comparing attributes -/

/-- An attribute is compared as the number that stands for its value. -/
private theorem attributeFindings_eq_toList {α : Type} [DecidableEq α] {a : DeviceAttribute}
    {display : α → String} {expected : Option α} {actual : α} (value : α → Int)
    (hvalue : Function.Injective value) (hexpected : a.declared? d = expected.map value)
    (hactual : a.live stat = value actual)
    (hdisplay : ∀ x ∈ expected, display x = a.shown (value x))
    (hshown : display actual = a.shown (value actual)) :
    attributeFindings (a.title d) display expected actual = (a.disagreement? d stat).toList := by
  cases expected with
  | none => simp [attributeFindings, DeviceAttribute.disagreement?, hexpected]
  | some x =>
    -- Both sides compare, one the values and one their numbers.
    simp only [attributeFindings, Option.elim_some, Findings.compare, Findings.ensure,
      DeviceAttribute.disagreement?, hexpected, hactual, Option.map_some, Option.bind_some,
      hdisplay x rfl, hshown, hvalue.eq_iff, decide_eq_true_eq]
    split <;> rfl

/-- The permissions are the lowest nine bits of a mode. -/
private theorem toNat_permissions (mode : UInt32) :
    (mode &&& (0o777 : UInt32)).toNat = mode.toNat % 2 ^ 9 := by
  rw [UInt32.toNat_and]
  exact Nat.and_two_pow_sub_one_eq_mod mode.toNat 9

/-- Numbers are compared as integers without loss. -/
theorem toNat_injective : Function.Injective fun n : UInt32 => (n.toNat : Int) := by
  intro m n h
  exact UInt32.toNat_inj.mp (Int.ofNat_inj.mp h)

/-- The number is reported in two parts, and not at all for a pipe. -/
private theorem numberFindings_eq (hkind : d.expectedKind? = some stat.kind) :
    numberFindings d stat =
      (DeviceAttribute.major.disagreement? d stat).toList ++
        (DeviceAttribute.minor.disagreement? d stat).toList := by
  unfold numberFindings
  by_cases hfifo : stat.kind = .fifo
  · have htype : d.type = "p" := (DeviceKind.eq_fifo_iff hkind).mp hfifo
    rw [if_pos hfifo]
    simp [DeviceAttribute.disagreement?, DeviceAttribute.declared?, htype]
  · have htype : ¬d.type = "p" := (DeviceKind.eq_fifo_iff hkind).not.mp hfifo
    -- The parts of a number are too small to be negative as signed words.
    have hmajor : stat.device.major.toInt64.toInt = stat.device.major.toNat :=
      DeviceNumber.toInt_toInt64 (by have := stat.device.toNat_major_lt; omega)
    have hminor : stat.device.minor.toInt64.toInt = stat.device.minor.toNat :=
      DeviceNumber.toInt_toInt64 (by have := stat.device.toNat_minor_lt; omega)
    have hinj : Function.Injective Int64.toInt := fun _ _ => Int64.toInt_inj.mp
    rw [if_neg hfifo]
    exact congrArg₂ (· ++ ·)
      (attributeFindings_eq_toList (a := .major) Int64.toInt hinj
        (if_neg htype : _ = (some d.major).map Int64.toInt) hmajor.symm (fun _ _ => rfl) rfl)
      (attributeFindings_eq_toList (a := .minor) Int64.toInt hinj
        (if_neg htype : _ = (some d.minor).map Int64.toInt) hminor.symm (fun _ _ => rfl) rfl)

/-- What is found about a file that is there. -/
theorem nodeFindings_eq_report (d : Device) (stat : FileStat) :
    nodeFindings d stat = report d (.ok stat) := by
  unfold nodeFindings report
  simp only [DeviceKind.fits_iff]
  by_cases hkind : d.expectedKind? = some stat.kind
  · -- Each of the other attributes is compared as a number too, the mode without its high bits.
    have hmode : attributeFindings s!"device {d.path} file mode" (Text.octal ·.toNat)
        (d.fileMode.map (· &&& (0o777 : UInt32))) stat.permissions =
          (DeviceAttribute.fileMode.disagreement? d stat).toList := by
      refine attributeFindings_eq_toList (a := .fileMode) (fun mode => mode.toNat) toNat_injective
        ?_ (congrArg Int.ofNat (toNat_permissions _).symm) (fun _ _ => rfl) rfl
      rw [Option.map_map]
      exact Option.map_congr fun mode _ => congrArg Int.ofNat (toNat_permissions mode).symm
    have huid : attributeFindings s!"device {d.path} uid" toString d.uid stat.uid =
        (DeviceAttribute.uid.disagreement? d stat).toList :=
      attributeFindings_eq_toList (a := .uid) (fun uid => uid.toNat) toNat_injective rfl rfl
        (fun _ _ => rfl) rfl
    have hgid : attributeFindings s!"device {d.path} gid" toString d.gid stat.gid =
        (DeviceAttribute.gid.disagreement? d stat).toList :=
      attributeFindings_eq_toList (a := .gid) (fun gid => gid.toNat) toNat_injective rfl rfl
        (fun _ _ => rfl) rfl
    rw [if_pos hkind, if_pos hkind, numberFindings_eq hkind, hmode, huid, hgid,
      List.filterMap_eq_flatMap_toList]
    simp [DeviceAttribute.all]
  · rw [if_neg hkind, if_neg hkind]

/-! ## Files that agree -/

/-- The devices that have numbers. -/
private theorem type_ne_fifo_iff {kind : DeviceKind} (hkind : d.expectedKind? = some kind) :
    ¬d.type = "p" ↔ d.type = "c" ∨ d.type = "u" ∨ d.type = "b" := by
  constructor
  · intro hfifo
    -- Any other type stands for no kind at all.
    by_contra hother
    obtain ⟨hchar, hunbuffered, hblock⟩ : d.type ≠ "c" ∧ d.type ≠ "u" ∧ d.type ≠ "b" := by
      simpa only [not_or] using hother
    simp [Device.expectedKind?, hchar, hunbuffered, hblock, hfifo] at hkind
  · rintro (h | h | h) <;> rw [h] <;> decide

/-- A file of the right kind agrees in all attributes exactly if it is what is declared. -/
private theorem agrees_iff (hkind : d.expectedKind? = some stat.kind) :
    (∀ a : DeviceAttribute, ∀ expected ∈ a.declared? d, a.live stat = expected) ↔
      d.Matches stat := by
  constructor
  · intro h
    exact
      { kind := hkind
        numbers := fun htype => by
          have hnumbered : ¬d.type = "p" := (type_ne_fifo_iff hkind).mpr htype
          exact (DeviceNumber.parts_eq_iff _ _ _).mp
            ⟨h .major _ (if_neg hnumbered), h .minor _ (if_neg hnumbered)⟩
        fileMode := fun mode hmode => by
          have hlive := h .fileMode _ (Option.mem_map_of_mem _ hmode)
          exact Int.ofNat_inj.mp hlive
        uid := fun uid huid => toNat_injective (h .uid _ (Option.mem_map_of_mem _ huid))
        gid := fun gid hgid => toNat_injective (h .gid _ (Option.mem_map_of_mem _ hgid)) }
  · intro h
    -- Both parts of the number at once, for they are declared together or not at all.
    have hparts (hnumbered : ¬d.type = "p") :=
      (DeviceNumber.parts_eq_iff _ _ _).mpr (h.numbers ((type_ne_fifo_iff hkind).mp hnumbered))
    intro a expected hexpected
    cases a with
    | major =>
      obtain ⟨hnumbered, rfl⟩ : ¬d.type = "p" ∧ d.major.toInt = expected := by
        simpa [DeviceAttribute.declared?] using hexpected
      exact (hparts hnumbered).1
    | minor =>
      obtain ⟨hnumbered, rfl⟩ : ¬d.type = "p" ∧ d.minor.toInt = expected := by
        simpa [DeviceAttribute.declared?] using hexpected
      exact (hparts hnumbered).2
    | fileMode =>
      obtain ⟨mode, hmode, rfl⟩ := Option.mem_map.mp hexpected
      exact Int.ofNat_inj.mpr (h.fileMode mode hmode)
    | uid =>
      obtain ⟨uid, huid, rfl⟩ := Option.mem_map.mp hexpected
      rw [← h.uid uid huid]
      rfl
    | gid =>
      obtain ⟨gid, hgid, rfl⟩ := Option.mem_map.mp hexpected
      rw [← h.gid gid hgid]
      rfl

/-- Nothing is found exactly about a file that is there and is what is declared. -/
theorem report_eq_nil_iff {answer : Except IoError FileStat} :
    report d answer = [] ↔ ∃ stat, answer = .ok stat ∧ d.Matches stat := by
  cases answer with
  | error e => simp [report]
  | ok stat =>
    by_cases hkind : d.expectedKind? = some stat.kind
    · simp only [report, if_pos hkind, List.filterMap_eq_nil_iff, DeviceAttribute.mem_all,
        true_imp_iff, DeviceAttribute.disagreement?_eq_none_iff, agrees_iff hkind]
      simp
    · have hmatches : ¬d.Matches stat := fun h => hkind h.kind
      simp [report, hkind, hmatches]

end File

/-! ## All devices -/

/-- Where the system says of a path that there is no file, or what file there is, the step finds
    what is to be found. -/
private theorem deviceFindings_eq_report {d : Device} {s : System}
    (hask : ∀ e, s.ask (.stat d.path) = .error e → e.kind = .notFound) :
    deviceFindings s d = .ok (report d (s.ask (.stat d.path))) := by
  cases hstat : s.ask (.stat d.path) with
  | error e => simp [deviceFindings, statIfThere, hstat, hask e hstat, report, pure, Except.pure]
  | ok stat =>
    simp [deviceFindings, statIfThere, hstat, nodeFindings_eq_report, pure, Except.pure]

/-- Where each declared device can be asked for or is not there, the check holds exactly if each
    one is there and is what its declaration says.  It concludes from what is to be found about
    each, in their order. -/
theorem devices_reported {d : Document} {s : System}
    (hask : ∀ node ∈ d.declaredDevices, ∀ e, s.ask (.stat node.path) = .error e →
      e.kind = .notFound) :
    (devices d s = .ok () ↔ ∀ node ∈ d.declaredDevices,
      ∃ stat, s.ask (.stat node.path) = .ok stat ∧ node.Matches stat) ∧
    devices d s = conclude
      (d.declaredDevices.flatMap fun node => report node (s.ask (.stat node.path))) := by
  -- No question stops the check: an error is one that it takes for an answer.
  have hread : ∀ node ∈ d.declaredDevices, (fileReading Device.path).Succeeds s node := by
    rintro node hnode e ⟨_, hq, he, hkind⟩
    obtain rfl := Option.some.inj hq
    exact hkind (by simp [fileReading, hask node hnode e he])
  have halone : ∀ node ∈ d.declaredDevices,
      (Reading.alone (deviceFindings s) node).findings = report node (s.ask (.stat node.path)) :=
    fun node hnode => Reading.findings_alone_of_ok (deviceFindings_eq_report (hask node hnode))
  have hdevices : devices d s = conclude
      (d.declaredDevices.flatMap fun node => report node (s.ask (.stat node.path))) := by
    rw [devices_eq, Reading.collect_of_succeeds (describes_deviceFindings s) hread,
      Findings.settle_ok, List.flatMap_congr halone]
  refine ⟨?_, hdevices⟩
  rw [hdevices, conclude_eq_ok_iff, List.flatMap_eq_nil_iff]
  exact forall₂_congr fun node _ => report_eq_nil_iff

/-- What is found where the kernel knows more bits than the numbers have, a pipe is declared with
    numbers, and the low bits of numbers that do not fit are those of the kernel. -/
theorem devices_reported_oversized :
    let null : Device :=
      { path := "/dev/null", type := "u", major := 1, minor := 3, fileMode := some 0o4666 }
    let pipe : Device := { path := "/run/pipe", type := "p", major := -1 }
    let disk : Device :=
      { path := "/dev/sda", type := "b", major := -1, minor := 0x100000, uid := some 1 }
    let gone : Device := { path := "/dev/gone", type := "c" }
    let d : List Device → Document := fun nodes => { linux := some { devices := nodes } }
    let files : List (String × FileStat) :=
      [("/dev/null", ⟨0o020666, 0xffffffff00000103, 0, 0⟩), ("/run/pipe", ⟨0o010600, 0, 0, 0⟩),
        ("/dev/sda", ⟨0o060660, 0x000fff00, 0, 6⟩)]
    let s : System :=
      { host := .linux, uid := 0, gid := 0, env := fun _ => none
        ask := fun
          | .stat path => (files.lookup path).elim (.error (.ofErrno .noEntry)) .ok
          | _ => .error (.ofErrno .denied) }
    (∀ path e, s.ask (.stat path) = .error e → e.kind = .notFound) ∧
      devices (d [null, pipe]) s = .ok () ∧
      devices (d [null, pipe, disk, gone]) s = .error
        [.mismatch "device /dev/sda major number" "-1" "4095",
          .mismatch "device /dev/sda minor number" "1048576" "0",
          .mismatch "device /dev/sda uid" "1" "0",
          .violation "device node /dev/gone not found"] := by
  intro null pipe disk gone d files s
  have hask : ∀ path e, s.ask (.stat path) = .error e → e.kind = .notFound := by
    intro path e he
    change (files.lookup path).elim (.error (.ofErrno .noEntry)) Except.ok = .error e at he
    cases hlookup : files.lookup path <;> rw [hlookup] at he <;> cases he
    rfl
  -- No read fails, so what is found is what is reported, and that can be computed.
  have hreport (nodes : List Device) := devices_reported (d := d nodes) (s := s)
    fun node _ => hask node.path
  refine ⟨hask, ?_, ?_⟩
  · rw [(hreport _).2]
    decide +kernel
  · rw [(hreport _).2]
    decide +kernel

end Check

end ContainerAudit
