import ContainerAudit.Entries
import ContainerAudit.Layout
import ContainerAudit.System

/-!
# Systems in memory

A `Replica` is a live system given as data.  `Replica.conforming` builds the one that a faithful
runtime would make from a document, and questions can be made to fail.
-/

namespace ContainerAudit

open Text (Bytes)

/-- A live system as data.  Paths are keys by `Path.key`. -/
structure Replica where
  mounts : MountTable := []
  capabilities : HeldCapabilities := .empty 40
  uid : UInt32 := 0
  gid : UInt32 := 0
  groups : List UInt32 := []
  cwd : Bytes := Text.encode "/"
  args : List String := []
  env : List (String × String) := []
  noNewPrivileges : Bool := false
  hostname : String := ""
  limits : List (String × Limits) := []
  sysctls : List (String × String) := []
  oomScoreAdj : Int32 := 0
  uidMap : List IdMapping := []
  gidMap : List IdMapping := []
  files : List (Bytes × FileStat) := []
  links : List (Bytes × Bytes) := []
  readable : List (Bytes × Unit) := []
  writable : List (Bytes × Unit) := []
  failing : List Question.Topic := []

namespace Question.Topic

/-- How the error of a failing topic calls it. -/
def name : Question.Topic → String
  | mounts => "Mounts"
  | capabilities => "Capabilities"
  | groups => "Groups"
  | workingDirectory => "Cwd"
  | arguments => "Args"
  | noNewPrivileges => "NoNewPrivs"
  | hostname => "Hostname"
  | limits => "Rlimit"
  | sysctl => "Sysctl"
  | oomScoreAdj => "OomScoreAdj"
  | idMap => "IdMap"
  | stat => "Stat"
  | linkTarget => "ReadLink"
  | isReadable => "Readable"
  | writeProbe => "ProbeWrite"

end Question.Topic

namespace Replica

/-- The error for something that is not there. -/
def absent (name : String) : IoError := ⟨.notFound, s!"{name} not found"⟩

/-- The error of a failing topic. -/
def failure (topic : Question.Topic) : IoError := ⟨.other, s!"{topic.name} query failed"⟩

/-- A value, or the error that it is not there. -/
def found {α : Type} (name : String) (value : Option α) : Except IoError α :=
  value.elim (.error (absent name)) .ok

/-- What the data of a replica say. -/
def lookUp (r : Replica) : (q : Question) → Except IoError q.Answer
  | .mounts => .ok r.mounts
  | .capabilities => .ok r.capabilities
  | .groups => .ok r.groups
  | .workingDirectory => .ok r.cwd
  | .arguments => .ok r.args
  | .noNewPrivileges => .ok r.noNewPrivileges
  | .hostname => .ok r.hostname
  | .limits name => found name (Entries.find? id r.limits name)
  | .sysctl key => found key (Entries.find? id r.sysctls key)
  | .oomScoreAdj => .ok r.oomScoreAdj
  | .idMap .uid => .ok r.uidMap
  | .idMap .gid => .ok r.gidMap
  | .stat path => found path (Entries.find? Path.key r.files (Path.keyOf path))
  | .linkTarget path => found path (Entries.find? Path.key r.links (Path.keyOf path))
  | .isReadable path => .ok (Entries.find? Path.key r.readable (Path.keyOf path)).isSome
  | .writeProbe path =>
    if (Entries.find? Path.key r.writable (Path.keyOf path)).isSome then .ok ()
    else .error ⟨.permissionDenied, s!"{path} is read-only"⟩

/-- The answer to a question.  Write probes do not fail by their topic. -/
def answer (r : Replica) (q : Question) : Except IoError q.Answer :=
  if q.topic ≠ .writeProbe ∧ q.topic ∈ r.failing then .error (failure q.topic) else r.lookUp q

/-- The system that a replica stands for on a host. -/
def system (r : Replica) (host : Platform) : System where
  host := host
  uid := r.uid
  gid := r.gid
  env name := Entries.find? id r.env name
  ask := r.answer

/-- Makes every question of a topic fail. -/
def fail (r : Replica) (topic : Question.Topic) : Replica :=
  { r with failing := if topic ∈ r.failing then r.failing else r.failing ++ [topic] }

end Replica

end ContainerAudit
