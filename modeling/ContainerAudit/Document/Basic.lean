import ContainerAudit.Document.Settings
import ContainerAudit.Live.Capability
import ContainerAudit.Live.IdMap
import ContainerAudit.Live.Limit
import ContainerAudit.Platform

/-!
# The configuration document of a container

What a bundle says about its container, as far as the audit looks at it.  Blocks that a document
may leave out are optional; every other field that may be absent has a default.
-/

namespace ContainerAudit

/-- The operating system and the architecture that a container is made for. -/
structure PlatformBlock where
  os : String := ""
  arch : String := ""
deriving DecidableEq

/-- The root file system. -/
structure RootBlock where
  path : String := ""
  readonly : Bool := false
deriving DecidableEq

/-- Who the process runs as. -/
structure User where
  uid : UInt32 := 0
  gid : UInt32 := 0
  additionalGids : List UInt32 := []
deriving DecidableEq

/-- The names of the capabilities in each set. -/
structure CapabilityNames where
  bounding : List String := []
  effective : List String := []
  inheritable : List String := []
  permitted : List String := []
  ambient : List String := []
deriving DecidableEq

/-- The names in one set. -/
def CapabilityNames.inSet (c : CapabilityNames) : CapabilitySet → List String
  | .bounding => c.bounding
  | .effective => c.effective
  | .inheritable => c.inheritable
  | .permitted => c.permitted
  | .ambient => c.ambient

/-- The declared limits on a resource. -/
structure DeclaredLimit where
  name : String
  hard : UInt64
  soft : UInt64
deriving DecidableEq

/-- The process of the container: how it is started, as whom, and with what privileges and
    limits. -/
structure Process where
  terminal : Bool := false
  user : User := {}
  args : List String := []
  env : List String := []
  cwd : String := ""
  capabilities : Option CapabilityNames := none
  rlimits : List DeclaredLimit := []
  noNewPrivileges : Bool := false
  oomScoreAdj : Option Int32 := none
deriving DecidableEq

/-- The name and the value in an entry of the environment: what stands before and after the first
    equals sign.  An entry without one names a variable with an empty value. -/
def Process.splitEntry (entry : String) : String × String :=
  let isName (c : Char) : Bool := c != '='
  (String.ofList (entry.toList.takeWhile isName),
    String.ofList ((entry.toList.dropWhile isName).drop 1))

/-- A declared mount. -/
structure Mount where
  destination : String := ""
  fstype : String := ""
  source : String := ""
  options : List String := []
deriving DecidableEq

/-- Whether a mount shows a directory or file of the host. -/
def Mount.isBind (m : Mount) : Bool :=
  m.fstype == "bind" || m.options.any fun o => o == "bind" || o == "rbind"

/-- A namespace that the container has, or joins at a path. -/
structure Namespace where
  type : String := ""
  path : Option String := none
deriving DecidableEq

/-- A declared device node. -/
structure Device where
  path : String := ""
  type : String := ""
  major : Int64 := 0
  minor : Int64 := 0
  fileMode : Option UInt32 := none
  uid : Option UInt32 := none
  gid : Option UInt32 := none
deriving DecidableEq

/-- The limits of the control group, as far as they are looked at. -/
structure Resources where
  oomScoreAdj : Option Int32 := none
deriving DecidableEq

/-- What is particular to Linux. -/
structure LinuxBlock where
  namespaces : List Namespace := []
  devices : List Device := []
  sysctl : Settings := .empty
  maskedPaths : List String := []
  readonlyPaths : List String := []
  uidMappings : List IdMapping := []
  gidMappings : List IdMapping := []
  cgroupsPath : Option String := none
  resources : Option Resources := none
deriving DecidableEq

/-- A configuration document. -/
structure Document where
  ociVersion : String := ""
  hostname : Option String := none
  platform : Option PlatformBlock := none
  root : Option RootBlock := none
  process : Option Process := none
  mounts : List Mount := []
  linux : Option LinuxBlock := none
deriving DecidableEq

namespace Document

/-- The platform that a document is for: the one that it names, or that of the host. -/
def intendedPlatform (d : Document) (host : Platform) : Platform :=
  match d.platform with
  | some p => if p.os = "" then host else .ofName p.os
  | none => host

/-- The declared adjustment of the out-of-memory score, for which the process block comes
    first. -/
def oomScoreAdj (d : Document) : Option Int32 :=
  (d.process.bind (·.oomScoreAdj)).or
    ((d.linux.bind (·.resources)).bind (·.oomScoreAdj))

/-- Whether the process has a terminal. -/
def terminal (d : Document) : Bool := (d.process.map (·.terminal)).getD false

/-- Whether the root file system must not be written to. -/
def readonlyRoot (d : Document) : Bool := (d.root.map (·.readonly)).getD false

end Document

end ContainerAudit
