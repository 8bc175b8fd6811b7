import ContainerAudit.Path.Name
import ContainerAudit.Text.Blank

/-!
# Arguments and kernel parameters

Two kinds of files whose contents are plain values: the argument vector of a process, with a
zero byte after each argument, and the kernel parameters below `/proc/sys`.
-/

namespace ContainerAudit

/-- The arguments in the argument file of a process.  Zero bytes at both ends do not count. -/
def parseArguments (raw : Text.Bytes) : List String :=
  match Text.trimWhere (· == 0) raw with
  | [] => []
  | bytes => (bytes.splitOn 0).map Text.decodeLossy

namespace Sysctl

/-- The file of a kernel parameter: each dot in its name is a slash in the path. -/
def path (key : String) : String :=
  let relative := key.toList.map fun c => if c = '.' then '/' else c
  String.ofList (Path.append '/' "/proc/sys".toList relative)

/-- The value in the file of a kernel parameter: zero characters and then blanks are dropped
    from its ends. -/
def value (raw : Text.Bytes) : String :=
  String.ofList
    (Text.trim (Text.trimWhere (· == '\x00') (Text.decodeLossy raw).toList))

end Sysctl

end ContainerAudit
