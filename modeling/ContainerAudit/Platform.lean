/-!
# Platforms

The operating system that a container is made for.
-/

namespace ContainerAudit

/-- An operating system, as far as the checks tell them apart. -/
inductive Platform where
  | linux
  | windows
  | other (name : String)
deriving DecidableEq

namespace Platform

/-- The platform with a name. -/
def ofName : String → Platform
  | "linux" => linux
  | "windows" => windows
  | name => other name

/-- The name of a platform. -/
def name : Platform → String
  | linux => "linux"
  | windows => "windows"
  | other name => name

/-- Whether the platform is Linux, with its devices, kernel parameters and user namespaces. -/
def isLinux (p : Platform) : Bool := p = linux

/-- Whether a mount hides what was mounted below its mountpoint before. -/
def stacksMounts (p : Platform) : Bool := p ≠ windows

end Platform

end ContainerAudit
