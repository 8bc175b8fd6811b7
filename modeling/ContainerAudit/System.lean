import ContainerAudit.Document.Basic
import ContainerAudit.IoError
import ContainerAudit.Live.Capability
import ContainerAudit.Live.Device
import ContainerAudit.Live.Mount
import ContainerAudit.Path.Name

/-!
# The live system

Everything that a check learns about the container goes through a `System`: it answers questions,
each with a value of its own type or an error.  A system answers the same question alike however
often it is asked, so a check is a function of a document and a system.
-/

namespace ContainerAudit

/-- What a check can ask. -/
inductive Question where
  | mounts
  | capabilities
  | groups
  | workingDirectory
  | arguments
  | noNewPrivileges
  | hostname
  | limits (name : String)
  | sysctl (key : String)
  | oomScoreAdj
  | idMap (kind : IdKind)
  | stat (path : String)
  | linkTarget (path : String)
  /-- Whether any data can be read at a path. -/
  | isReadable (path : String)
  /-- Whether a path can be written to; the probe leaves nothing behind. -/
  | writeProbe (path : String)
deriving DecidableEq

namespace Question

/-- The type of the answer to a question. -/
abbrev Answer : Question → Type
  | mounts => MountTable
  | capabilities => HeldCapabilities
  | groups => List UInt32
  | workingDirectory => Text.Bytes
  | arguments => List String
  | noNewPrivileges => Bool
  | hostname => String
  | limits _ => Limits
  | sysctl _ => String
  | oomScoreAdj => Int32
  | idMap _ => List IdMapping
  | stat _ => FileStat
  | linkTarget _ => Text.Bytes
  | isReadable _ => Bool
  | writeProbe _ => Unit

/-- What a question is about, whatever its argument. -/
inductive Topic where
  | mounts
  | capabilities
  | groups
  | workingDirectory
  | arguments
  | noNewPrivileges
  | hostname
  | limits
  | sysctl
  | oomScoreAdj
  | idMap
  | stat
  | linkTarget
  | isReadable
  | writeProbe
deriving DecidableEq, Repr

/-- The topic of a question. -/
def topic : Question → Topic
  | mounts => .mounts
  | capabilities => .capabilities
  | groups => .groups
  | workingDirectory => .workingDirectory
  | arguments => .arguments
  | noNewPrivileges => .noNewPrivileges
  | hostname => .hostname
  | limits _ => .limits
  | sysctl _ => .sysctl
  | oomScoreAdj => .oomScoreAdj
  | idMap _ => .idMap
  | stat _ => .stat
  | linkTarget _ => .linkTarget
  | isReadable _ => .isReadable
  | writeProbe _ => .writeProbe

/-- The argument of a question as text. -/
def argument : Question → String
  | limits name => name
  | sysctl key => key
  | idMap kind => kind.name
  | stat path | linkTarget path | isReadable path | writeProbe path => path
  | _ => ""

end Question

/-- A live system. -/
structure System where
  /-- The platform of the host, for documents that name none. -/
  host : Platform
  uid : UInt32
  gid : UInt32
  /-- The value of an environment variable, if it is set. -/
  env : String → Option String
  ask : (question : Question) → Except IoError question.Answer

end ContainerAudit
