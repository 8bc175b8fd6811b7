import ContainerAudit.IoError

/-!
# Resource limits
-/

namespace ContainerAudit

/-- The limits on a resource: one that holds, and one up to which a process may raise it. -/
structure Limits where
  soft : UInt64
  hard : UInt64
deriving DecidableEq

namespace Limits

/-- The names of the limits that the platform knows. -/
def names : List String :=
  ["RLIMIT_CPU", "RLIMIT_FSIZE", "RLIMIT_DATA", "RLIMIT_STACK", "RLIMIT_CORE", "RLIMIT_RSS",
    "RLIMIT_NPROC", "RLIMIT_NOFILE", "RLIMIT_MEMLOCK", "RLIMIT_AS", "RLIMIT_LOCKS",
    "RLIMIT_SIGPENDING", "RLIMIT_MSGQUEUE", "RLIMIT_NICE", "RLIMIT_RTPRIO", "RLIMIT_RTTIME"]

/-- Whether the platform knows a limit. -/
def isKnown (name : String) : Bool := names.contains name

/-- The error of reading a limit that the platform does not know. -/
def unknown (name : String) : IoError := ⟨.invalidInput, s!"unknown rlimit {name}"⟩

end Limits

end ContainerAudit
