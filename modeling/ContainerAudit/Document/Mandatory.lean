import ContainerAudit.Document.Basic

/-!
# Mandatory parts of a document

A document may be read and still lack what every container needs.  Each block lists the dotted
paths of its parts that are missing, below the path where it stands itself; `Document.missing`
lists them for a whole document, in the order of the walk: the root, the process, the mounts and
the devices.
-/

namespace ContainerAudit

/-- The dotted path of a field in the block at a path.  The document itself has the empty path. -/
def fieldPath (parent name : String) : String :=
  if parent.isEmpty then name else s!"{parent}.{name}"

/-- The path of an element of the list at a path. -/
def elementPath (list : String) (index : Nat) : String := s!"{list}[{index}]"

/-- The path of a field, if the field is missing. -/
def missingField (parent name : String) (missing : Bool) : List String :=
  if missing then [fieldPath parent name] else []

/-- What is missing of a block that must be there. -/
def missingOfBlock {α : Type} (missing : String → α → List String) (block : Option α)
    (parent name : String) : List String :=
  let path := fieldPath parent name
  match block with
  | some block => missing path block
  | none => [path]

/-- What is missing of the elements of a list. -/
def missingOfEach {α : Type} (missing : String → α → List String) (items : List α)
    (parent name : String) : List String :=
  items.zipIdx.flatMap fun (item, index) => missing (elementPath (fieldPath parent name) index) item

/-- What is missing of the root block. -/
def RootBlock.missing (parent : String) (r : RootBlock) : List String :=
  missingField parent "path" r.path.isEmpty

/-- What is missing of the process block. -/
def Process.missing (parent : String) (p : Process) : List String :=
  missingField parent "args" p.args.isEmpty

/-- What is missing of a mount. -/
def Mount.missing (parent : String) (m : Mount) : List String :=
  missingField parent "destination" m.destination.isEmpty

/-- What is missing of a device. -/
def Device.missing (parent : String) (d : Device) : List String :=
  missingField parent "path" d.path.isEmpty ++ missingField parent "type" d.type.isEmpty

/-- What is missing of the block for Linux. -/
def LinuxBlock.missing (parent : String) (l : LinuxBlock) : List String :=
  missingOfEach Device.missing l.devices parent "devices"

namespace Document

/-- The mandatory parts that a document at a path lacks. -/
def missingUnder (parent : String) (d : Document) : List String :=
  missingOfBlock RootBlock.missing d.root parent "root" ++
    missingOfBlock Process.missing d.process parent "process" ++
    missingOfEach Mount.missing d.mounts parent "mounts" ++
    match d.linux with
    | some l => l.missing (fieldPath parent "linux")
    | none => []

/-- The mandatory parts that a document lacks. -/
def missing (d : Document) : List String := d.missingUnder ""

end Document

end ContainerAudit
