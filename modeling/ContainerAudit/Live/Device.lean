/-!
# Files and device numbers

What the kernel says about a file, and the two numbers that make up the number of a device.
-/

namespace ContainerAudit

/-- The kinds of files that a document can declare as devices. -/
inductive DeviceKind where
  | char
  | block
  | fifo
  /-- Any other file. -/
  | otherKind
deriving DecidableEq, Repr

namespace DeviceKind

/-- The part of a mode that holds the type of the file. -/
def typeMask : UInt32 := 0o170000

/-- The type of a character device in a mode. -/
def charType : UInt32 := 0o020000

/-- The type of a block device in a mode. -/
def blockType : UInt32 := 0o060000

/-- The type of a pipe in a mode. -/
def fifoType : UInt32 := 0o010000

/-- The kind of a file with a mode. -/
def ofMode (mode : UInt32) : DeviceKind :=
  let type := mode &&& typeMask
  if type = charType then char
  else if type = blockType then block
  else if type = fifoType then fifo
  else otherKind

/-- The word for a kind. -/
def name : DeviceKind → String
  | char => "c"
  | block => "b"
  | fifo => "p"
  | otherKind => "unmatched"

/-- Whether a file of this kind is what a document declares.  An unbuffered device, `u`, is a
    character device. -/
def fits (kind : DeviceKind) (declared : String) : Bool :=
  match kind with
  | otherKind => false
  | char => declared == "c" || declared == "u"
  | block => declared == "b"
  | fifo => declared == "p"

/-- Whether files of this kind are devices. -/
def isDevice : DeviceKind → Bool
  | char | block => true
  | fifo | otherKind => false

end DeviceKind

/-- The number of a device.  Its low 20 bits hold eight bits of the minor number and twelve of the
    major number; the bits above hold the rest of the minor number. -/
abbrev DeviceNumber := UInt64

namespace DeviceNumber

/-- The major number of a device. -/
def major (n : DeviceNumber) : UInt64 := (n >>> 8) &&& (0xfff : UInt64)

/-- The minor number of a device. -/
def minor (n : DeviceNumber) : UInt64 :=
  (n &&& (0xff : UInt64)) ||| ((n >>> 12) &&& (0xfff00 : UInt64))

/-- The number of the device with a major and a minor number. -/
def ofParts (major minor : UInt64) : DeviceNumber :=
  (minor &&& (0xff : UInt64)) ||| ((major &&& (0xfff : UInt64)) <<< 8) |||
    ((minor &&& ~~~(0xff : UInt64)) <<< 12)

end DeviceNumber

/-- What the kernel says about a file. -/
structure FileStat where
  mode : UInt32
  /-- The device that the file stands for, if it is one. -/
  device : DeviceNumber
  uid : UInt32
  gid : UInt32
deriving DecidableEq

namespace FileStat

/-- The kind of the file. -/
def kind (s : FileStat) : DeviceKind := .ofMode s.mode

/-- The permission bits, without those for set-id and sticky files. -/
def permissions (s : FileStat) : UInt32 := s.mode &&& (0o777 : UInt32)

end FileStat

end ContainerAudit
