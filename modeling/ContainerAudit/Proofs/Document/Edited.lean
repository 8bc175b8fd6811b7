import ContainerAudit.Proofs.Document.Fields
import ContainerAudit.Proofs.Document.Mandatory
import ContainerAudit.Proofs.Document.Settings
import ContainerAudit.Proofs.Json.Edited

/-!
# Documents with other members and in another order

The members of any object that stands for a block of a document may come in any order, and members
that this block does not know may join them.  So may the entries of the map of kernel parameters
come in any order, provided that no name comes twice.  The text is then read as the same document.

A member that joins must have a text for its name.  A name in which half of a surrogate pair stands
alone is not one, and a reader that has to compare it with the names of fields fails.

## Key results

- `Document.Edited`: the edits of the tree of a document
- `Document.decode_edited`: a text of an edited tree is read as the same document
-/

namespace ContainerAudit

open Json (ListEdited MapEdited Record Stable Tree stable_text stable_bool stable_uint32
  stable_uint64 stable_int32 stable_int64)

/-! ## Edits of each block -/

/-- Edits of the tree of the platform block. -/
def PlatformBlock.Edited : Tree → Tree → Prop := record.Edited fun _ => Eq

/-- Both fields are texts. -/
theorem PlatformBlock.stable : Stable record.decode PlatformBlock.Edited :=
  Record.stable independent
    ⟨stable_text.map _, stable_text.map _⟩

/-- Edits of the tree of the root block. -/
def RootBlock.Edited : Tree → Tree → Prop := record.Edited fun _ => Eq

/-- A text and a flag. -/
theorem RootBlock.stable : Stable record.decode RootBlock.Edited :=
  Record.stable independent
    ⟨stable_text.map _, stable_bool.map _⟩

/-- Edits of the tree of a user. -/
def User.Edited : Tree → Tree → Prop := record.Edited fun _ => Eq

/-- Numbers and a list of them. -/
theorem User.stable : Stable record.decode User.Edited :=
  Record.stable independent
    ⟨stable_uint32.map _, stable_uint32.map _, stable_uint32.list_eq.map _⟩

/-- Edits of the tree of the declared capabilities. -/
def CapabilityNames.Edited : Tree → Tree → Prop := record.Edited fun _ => Eq

/-- Five lists of texts. -/
theorem CapabilityNames.stable : Stable record.decode CapabilityNames.Edited :=
  Record.stable independent
    ⟨stable_text.list_eq.map _, stable_text.list_eq.map _, stable_text.list_eq.map _,
      stable_text.list_eq.map _, stable_text.list_eq.map _⟩

/-- Edits of the tree of a declared limit. -/
def DeclaredLimit.Edited : Tree → Tree → Prop := record.Edited fun _ => Eq

/-- A text and two numbers of 64 bits. -/
theorem DeclaredLimit.stable : Stable record.decode DeclaredLimit.Edited :=
  Record.stable independent
    ⟨stable_text.map _, stable_uint64.map _, stable_uint64.map _⟩

/-- Edits of the tree of a declared mount. -/
def Mount.Edited : Tree → Tree → Prop := record.Edited fun _ => Eq

/-- Three texts and a list of texts. -/
theorem Mount.stable : Stable record.decode Mount.Edited :=
  Record.stable independent
    ⟨stable_text.map _, stable_text.map _, stable_text.map _, stable_text.list_eq.map _⟩

/-- Edits of the tree of a namespace. -/
def Namespace.Edited : Tree → Tree → Prop := record.Edited fun _ => Eq

/-- A text and one that may be left out. -/
theorem Namespace.stable : Stable record.decode Namespace.Edited :=
  Record.stable independent
    ⟨stable_text.map _, stable_text.option_eq.map _⟩

/-- Edits of the tree of a declared device. -/
def Device.Edited : Tree → Tree → Prop := record.Edited fun _ => Eq

/-- Two texts, two signed numbers and three attributes that may be left out. -/
theorem Device.stable : Stable record.decode Device.Edited :=
  Record.stable independent
    ⟨stable_text.map _, stable_text.map _, stable_int64.map _, stable_int64.map _,
      stable_uint32.option_eq.map _, stable_uint32.option_eq.map _, stable_uint32.option_eq.map _⟩

/-- Edits of the tree of an id mapping. -/
def IdMapping.Edited : Tree → Tree → Prop := record.Edited fun _ => Eq

/-- Three numbers. -/
theorem IdMapping.stable : Stable record.decode IdMapping.Edited :=
  Record.stable independent
    ⟨stable_uint32.map _, stable_uint32.map _, stable_uint32.map _⟩

/-- Edits of the tree of the resources. -/
def Resources.Edited : Tree → Tree → Prop := record.Edited fun _ => Eq

/-- A number that may be left out. -/
theorem Resources.stable : Stable record.decode Resources.Edited :=
  Record.stable independent (stable_int32.option_eq.map _)

/-- Edits of the tree of the process block. -/
def Process.Edited : Tree → Tree → Prop := record.Edited fun
  | "user" => User.Edited
  | "capabilities" => CapabilityNames.Edited
  | "rlimits" => ListEdited DeclaredLimit.Edited
  | _ => Eq

/-- Of the fields of the process, the user, the capabilities and the limits can be edited
    themselves. -/
theorem Process.stable : Stable record.decode Process.Edited :=
  Record.stable independent
    ⟨stable_bool.map _, User.stable.map _, stable_text.list_eq.map _, stable_text.list_eq.map _,
      stable_text.map _, (CapabilityNames.stable.option Record.Edited.null_iff).map _,
      DeclaredLimit.stable.list.map _, stable_bool.map _, stable_int32.option_eq.map _⟩

/-- Edits of the tree of the block for Linux. -/
def LinuxBlock.Edited : Tree → Tree → Prop := record.Edited fun
  | "namespaces" => ListEdited Namespace.Edited
  | "devices" => ListEdited Device.Edited
  | "sysctl" => MapEdited
  | "uidMappings" | "gidMappings" => ListEdited IdMapping.Edited
  | "resources" => Resources.Edited
  | _ => Eq

/-- Of the fields of the block for Linux, the lists of blocks, the resources and the kernel
    parameters can be edited themselves. -/
theorem LinuxBlock.stable : Stable record.decode LinuxBlock.Edited := by
  -- Settings do not keep the order of the entries that they are made of.
  have hsysctl : Stable (fun t => (Json.decodeMembers Json.decodeText t).map
      fun v (l : LinuxBlock) => { l with sysctl := .ofList v }) MapEdited :=
    stable_text.members fun hnodup hperm => by rw [Settings.ofList_eq_of_perm hnodup hperm]
  exact Record.stable independent
    ⟨Namespace.stable.list.map _, Device.stable.list.map _, hsysctl, stable_text.list_eq.map _,
      stable_text.list_eq.map _, IdMapping.stable.list.map _, IdMapping.stable.list.map _,
      stable_text.option_eq.map _, (Resources.stable.option Record.Edited.null_iff).map _⟩

namespace Document

/-- Edits of the tree of a document. -/
def Edited : Tree → Tree → Prop := record.Edited fun
  | "platform" => PlatformBlock.Edited
  | "root" => RootBlock.Edited
  | "process" => Process.Edited
  | "mounts" => ListEdited Mount.Edited
  | "linux" => LinuxBlock.Edited
  | _ => Eq

/-- An edited tree of a document is read as the same document. -/
theorem stable : Stable record.decode Edited :=
  Record.stable independent
    ⟨stable_text.map _, stable_text.option_eq.map _,
      (PlatformBlock.stable.option Record.Edited.null_iff).map _,
      (RootBlock.stable.option Record.Edited.null_iff).map _,
      (Process.stable.option Record.Edited.null_iff).map _, Mount.stable.list.map _,
      (LinuxBlock.stable.option Record.Edited.null_iff).map _⟩

/-! ## Edited texts -/

/-- A document is read from the texts of the trees from which it is read. -/
private theorem decode_eq_ok_iff {bytes : Text.Bytes} {d : Document} :
    decode bytes = .ok d ↔ ∃ tree, Json.IsText tree bytes ∧ record.decode tree = .ok d := by
  rw [decode, Json.decodeDocument]
  constructor
  · intro h
    -- Bytes behind the tree are a fault too, but only once the tree has been read.
    cases hread : record.decode (Json.parse bytes).tree with
    | error e => simp [hread, bind, Except.bind] at h
    | ok d' =>
      cases htrailing : (Json.parse bytes).trailing with
      | true =>
        simp [hread, htrailing, bind, Except.bind, throw, throwThe, MonadExceptOf.throw] at h
      | false =>
        obtain rfl : d' = d := by
          simpa [hread, htrailing, bind, Except.bind, pure, Except.pure] using h
        refine ⟨_, Json.isText_iff.mpr ⟨?_, stable.isWhole hread⟩, hread⟩
        rw [← htrailing]
  · rintro ⟨tree, htext, hread⟩
    have hparse := (Json.isText_iff.mp htext).1
    simp [hparse, hread, bind, Except.bind, pure, Except.pure]

/-- A text of an edited tree is read as the same document, and both loaders make the same of it. -/
theorem decode_edited {bytes : Text.Bytes} {d : Document} (h : decode bytes = .ok d) :
    ∃ tree, Json.IsText tree bytes ∧
      ∀ tree' bytes', Edited tree tree' → Json.IsText tree' bytes' →
        decode bytes' = .ok d ∧
          (∀ path, ofOpening path (.contents bytes') = ofOpening path (.contents bytes)) ∧
          ∀ json json', Text.encode json = bytes → Text.encode json' = bytes' →
            fromJson json' = fromJson json := by
  obtain ⟨tree, htext, hread⟩ := decode_eq_ok_iff.mp h
  -- Whatever the edits are, the edited tree is read as the document, and so are its texts.
  refine ⟨tree, htext, fun tree' bytes' hedited htext' => ?_⟩
  have hread' : record.decode tree' = .ok d := stable.decode_eq hedited htext'.1 hread
  have h' : decode bytes' = .ok d := decode_eq_ok_iff.mpr ⟨tree', htext', hread'⟩
  refine ⟨h', fun path => by rw [ofOpening_of_decode h', ofOpening_of_decode h], ?_⟩
  rintro json json' rfl rfl
  rw [fromJson_of_decode h', fromJson_of_decode h]

/-- The text of a short document. -/
def shortText : String :=
  "\x7b\"ociVersion\":\"1.0.2\",\"process\":\x7b\"cwd\":\"/\"\x7d\x7d"

/-- The text with its members in another order and a member that the process block does not know. -/
def shortTextEdited : String :=
  "\x7b\"process\":\x7b\"umask\": 18, \"cwd\":\"/\"\x7d,\"ociVersion\":\"1.0.2\"\x7d"

/-- The tree of the short document, for a tree of its process block. -/
def shortTree (process : Tree) : Tree :=
  .object [(some "ociVersion", .text (some "1.0.2")), (some "process", process)] none

/-- The tree of the edited text, for a tree of the process block. -/
def shortTreeEdited (process : Tree) : Tree :=
  .object [(some "process", process), (some "ociVersion", .text (some "1.0.2"))] none

/-- The tree of the process block. -/
def shortProcess : Tree := .object [(some "cwd", .text (some "/"))] none

/-- The tree of the edited process block. -/
def shortProcessEdited : Tree :=
  .object [(some "umask", .number ⟨false, [8, 1], none, none⟩), (some "cwd", .text (some "/"))] none

/-- The process block has a new member, and both objects have their members in another order. -/
private theorem edited_shortTree :
    Edited (shortTree shortProcess) (shortTreeEdited shortProcessEdited) := by
  have hprocess : Process.Edited shortProcess shortProcessEdited :=
    .object (.cons ⟨"cwd", rfl, rfl, rfl⟩ .nil)
      (List.forall_mem_singleton.mpr ⟨"umask", rfl, by decide⟩) (.swap _ _ _)
  exact .object
    (.cons (b := (_, _)) ⟨"ociVersion", rfl, rfl, rfl⟩
      (.cons (b := (_, _)) ⟨"process", rfl, rfl, hprocess⟩ .nil))
    (List.forall_mem_nil _) (.swap _ _ _)

/-- The document that both texts are read as. -/
def shortDocument : Document := { ociVersion := "1.0.2", process := some { cwd := "/" } }

/-- Both texts are read as the short document, and load alike. -/
theorem decode_shortTextEdited :
    decode (Text.encode shortText) = .ok shortDocument ∧
      decode (Text.encode shortTextEdited) = .ok shortDocument ∧
      fromJson shortTextEdited = fromJson shortText := by
  have hread : decode (Text.encode shortText) = .ok shortDocument := rfl
  obtain ⟨tree, htext, hedits⟩ := decode_edited hread
  -- A text has only one tree, so this is the one that is written down here.
  obtain rfl : tree = shortTree shortProcess := by
    have hparse : Json.parse (Text.encode shortText) = ⟨shortTree shortProcess, false⟩ := rfl
    exact (Json.Parsed.mk.inj ((Json.isText_iff.mp htext).1.symm.trans hparse)).1
  have htext' : Json.IsText (shortTreeEdited shortProcessEdited) (Text.encode shortTextEdited) :=
    Json.isText_iff.mpr ⟨rfl, rfl⟩
  obtain ⟨hread', -, hload⟩ := hedits _ _ edited_shortTree htext'
  exact ⟨hread, hread', hload _ _ rfl rfl⟩

/-- The empty document with a member whose name is the first half of a surrogate pair. -/
def unpairedNameText : Text.Bytes := Text.encode "\x7b\"\\ud800\": null\x7d"

/-- A name that is no text cannot be compared with the names of fields, even though it is none of
    them. -/
theorem decode_unpairedName :
    Json.IsText (.object [] none) (Text.encode "\x7b\x7d") ∧
      decode (Text.encode "\x7b\x7d") = .ok {} ∧
      Json.IsText (.object [(none, .null)] none) unpairedNameText ∧
      (∀ f ∈ record.fields, some f.name ≠ none) ∧
      decode unpairedNameText = .error (.fault .malformed) :=
  ⟨Json.isText_iff.mpr ⟨rfl, rfl⟩, rfl, Json.isText_iff.mpr ⟨rfl, rfl⟩, fun _ _ => nofun, rfl⟩

end Document

end ContainerAudit
