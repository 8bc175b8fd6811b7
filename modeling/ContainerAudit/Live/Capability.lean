/-!
# Capabilities

The privileges of a process.  Five sets of capabilities belong to a process, and the kernel keeps
each as a word with one bit per capability; bits above the named ones are kept, too.
-/

namespace ContainerAudit

/-- The names of the capabilities, by number. -/
def capabilityNames : List String :=
  ["CAP_CHOWN", "CAP_DAC_OVERRIDE", "CAP_DAC_READ_SEARCH", "CAP_FOWNER", "CAP_FSETID",
    "CAP_KILL", "CAP_SETGID", "CAP_SETUID", "CAP_SETPCAP", "CAP_LINUX_IMMUTABLE",
    "CAP_NET_BIND_SERVICE", "CAP_NET_BROADCAST", "CAP_NET_ADMIN", "CAP_NET_RAW",
    "CAP_IPC_LOCK", "CAP_IPC_OWNER", "CAP_SYS_MODULE", "CAP_SYS_RAWIO", "CAP_SYS_CHROOT",
    "CAP_SYS_PTRACE", "CAP_SYS_PACCT", "CAP_SYS_ADMIN", "CAP_SYS_BOOT", "CAP_SYS_NICE",
    "CAP_SYS_RESOURCE", "CAP_SYS_TIME", "CAP_SYS_TTY_CONFIG", "CAP_MKNOD", "CAP_LEASE",
    "CAP_AUDIT_WRITE", "CAP_AUDIT_CONTROL", "CAP_SETFCAP", "CAP_MAC_OVERRIDE",
    "CAP_MAC_ADMIN", "CAP_SYSLOG", "CAP_WAKE_ALARM", "CAP_BLOCK_SUSPEND", "CAP_AUDIT_READ",
    "CAP_PERFMON", "CAP_BPF", "CAP_CHECKPOINT_RESTORE"]

/-- A capability, by number. -/
abbrev Capability := Fin 41

namespace Capability

private theorem length_names : capabilityNames.length = 41 := rfl

/-- The name of a capability. -/
def name (c : Capability) : String := capabilityNames.get (c.cast length_names.symm)

/-- The capability with a number. -/
def ofNumber? (n : Nat) : Option Capability := if h : n < 41 then some ⟨n, h⟩ else none

/-- The capability with a name. -/
def ofName? (name : String) : Option Capability :=
  (List.finRange 41).find? fun c => c.name = name

/-- The capabilities up to a number, in order. -/
def upTo (last : Nat) : List Capability := (List.finRange 41).filter fun c => c.val ≤ last

/-- The bit of a capability. -/
def bit (c : Capability) : UInt64 := 1 <<< UInt64.ofNat c.val

end Capability

/-- The five sets of capabilities of a process. -/
inductive CapabilitySet where
  | bounding
  | effective
  | inheritable
  | permitted
  | ambient
deriving DecidableEq, Repr

namespace CapabilitySet

/-- The sets in the order in which they are reported. -/
def all : List CapabilitySet := [bounding, effective, inheritable, permitted, ambient]

/-- The name of a set. -/
def name : CapabilitySet → String
  | bounding => "bounding"
  | effective => "effective"
  | inheritable => "inheritable"
  | permitted => "permitted"
  | ambient => "ambient"

/-- The position of the word of a set among the words of all sets. -/
def index : CapabilitySet → Fin 5
  | bounding => 0
  | effective => 1
  | inheritable => 2
  | permitted => 3
  | ambient => 4

end CapabilitySet

/-- The capability sets of a process at one moment. -/
structure HeldCapabilities where
  /-- The words of the sets, by `CapabilitySet.index`. -/
  masks : Vector UInt64 5
  /-- The number of the last capability that the kernel knows. -/
  lastCap : UInt32
deriving DecidableEq

namespace HeldCapabilities

/-- The sets of a process without capabilities. -/
def empty (lastCap : UInt32) : HeldCapabilities := ⟨.replicate 5 0, lastCap⟩

/-- The word of a set. -/
def mask (s : HeldCapabilities) (set : CapabilitySet) : UInt64 := s.masks[set.index]

/-- Replaces the word of a set. -/
def setMask (s : HeldCapabilities) (set : CapabilitySet) (mask : UInt64) :
    HeldCapabilities :=
  { s with masks := s.masks.set set.index mask }

/-- Whether a set holds a capability. -/
def has (s : HeldCapabilities) (set : CapabilitySet) (c : Capability) : Bool :=
  s.mask set &&& c.bit != 0

/-- Puts a capability into a set or takes it out. -/
def set (s : HeldCapabilities) (set : CapabilitySet) (c : Capability) (present : Bool) :
    HeldCapabilities :=
  s.setMask set (if present then s.mask set ||| c.bit else s.mask set &&& ~~~c.bit)

end HeldCapabilities

end ContainerAudit
