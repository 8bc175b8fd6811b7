import ContainerAudit.Check.Questions
import ContainerAudit.CommandLine
import ContainerAudit.Execution
import ContainerAudit.Live.Host
import ContainerAudit.Live.ProcFile

/-!
# The program

Reads the command line, loads the document, asks the host and writes what the audit says.  All
decisions are made elsewhere.
-/

namespace ContainerAudit.Program

/-- The number of an error of the operating system. -/
def osCode? : IO.Error → Option UInt32
  | .noFileOrDirectory _ code _ | .interrupted _ code _ | .alreadyExists _ code _
  | .permissionDenied _ code _ | .invalidArgument _ code _ | .inappropriateType _ code _
  | .resourceExhausted _ code _ | .noSuchThing _ code _ => some code
  | .otherError code _ | .unsatisfiedConstraints code _ | .unsupportedOperation code _
  | .illegalOperation code _ | .hardwareFault code _ | .resourceBusy code _ => some code
  | _ => none

/-- An error of the operating system with its kind. -/
def ioError (e : IO.Error) : IoError :=
  match (osCode? e).bind fun code => Errno.all.find? (·.number = code.toNat) with
  | some errno => .ofErrno errno
  | none => ⟨.other, toString e⟩

/-- The result of an action, or its error. -/
def attempt {α : Type} (action : IO α) : IO (Except IoError α) := do
  return (← action.toBaseIO).mapError ioError

/-- The bytes of a file. -/
def readBytes (path : String) : IO (Except IoError Text.Bytes) :=
  attempt do return (← IO.FS.readBinFile path).data.toList

/-- The text of a file. -/
def readText (path : String) : IO (Except IoError String) := do
  return (← readBytes path).map Text.decodeLossy

/-- Opens a file and reads it. -/
def openFile (path : String) : IO Opening := do
  match ← attempt (IO.FS.Handle.mk path .read) with
  | .error e => return .refused e
  | .ok handle =>
    match ← attempt handle.readBinToEnd with
    | .error e => return .unreadable e
    | .ok bytes => return .contents bytes.data.toList

/-- Whether there is anything to read at a path. -/
def isReadable (path : String) : IO (Except IoError Bool) := do
  let found ← attempt do
    let file ← IO.FS.realPath path
    if ← file.isDir then return !(← file.readDir).isEmpty
    let handle ← IO.FS.Handle.mk file .read
    return !(← handle.read 1).isEmpty
  match found with
  | .ok readable => return .ok readable
  | .error e =>
    if e.kind = .notFound ∨ e.kind = .permissionDenied then return .ok false
    return .error e

/-- Tries to write at a path. -/
def writeProbe (path : String) : IO (Except IoError Unit) := attempt do
  let file ← IO.FS.realPath path
  if ← file.isDir then
    let probe := file / FileTree.probeName s!"{← IO.monoNanosNow}"
    let _ ← IO.FS.Handle.mk probe .writeNew
    IO.FS.removeFile probe
  else
    let _ ← IO.FS.Handle.mk file .append

/-- The error for what cannot be asked from here. -/
def unavailable (what : String) : IoError := ⟨.unsupported, s!"{what} is not available"⟩

/-- The status of the process. -/
def readStatus : IO (Except IoError String) := readText "/proc/self/status"

/-- Asks the host. -/
def ask : (question : Question) → IO (Except IoError question.Answer)
  | .mounts => do return (← readText "/proc/self/mountinfo").map MountTable.parse
  | .capabilities => do
    let last := Host.lastCapability (← readText "/proc/sys/kernel/cap_last_cap").toOption
    return (← readStatus).bind (HeldCapabilities.ofStatus · last)
  | .groups => do return (← readStatus).map Host.groups
  | .workingDirectory => attempt do return Text.encode (toString (← IO.currentDir))
  | .arguments => do return (← readBytes "/proc/self/cmdline").map parseArguments
  | .noNewPrivileges => do return (← readStatus).map Host.noNewPrivileges
  | .hostname => do return (← readBytes "/proc/sys/kernel/hostname").map Sysctl.value
  | .limits name => do return (← readText "/proc/self/limits").bind (Host.limits · name)
  | .sysctl key => do return (← readBytes (Sysctl.path key)).map Sysctl.value
  | .oomScoreAdj => do return (← readText "/proc/self/oom_score_adj").bind Host.oomScoreAdj
  | .idMap kind => do return (← readText s!"/proc/self/{kind.name}_map").bind IdMapping.parse
  | .stat path => return .error (unavailable s!"the status of {path}")
  | .linkTarget path => return .error (unavailable s!"the target of {path}")
  | .isReadable path => isReadable path
  | .writeProbe path => writeProbe path

/-- The value of a variable with its name, if it is set. -/
def readVariable (name : String) : IO (Option (String × String)) := do
  return (← IO.getEnv name).map fun value => (name, value)

/-- The host as far as a document asks for it. -/
def host (d : Document) : IO System := do
  let status := (← readStatus).toOption.getD ""
  let names := (d.process.map fun p => p.env.map (Process.splitEntry · |>.1)).getD []
  let env ← names.filterMapM readVariable
  let answers ← d.questions.mapM fun question => return ⟨question, ← ask question⟩
  return Host.system .linux (Host.realId status "Uid:") (Host.realId status "Gid:") env answers

/-- The words of this program's reader of JSON, which does not count lines. -/
def decodeMessage : Json.DecodeError → String
  | .fault .malformed => "malformed JSON"
  | .fault .truncated => "unexpected end of JSON"
  | .misfit m => m.message

/-- The words for errors of reading. -/
def wording : Wording where
  ofReader
    | .unread cause => cause.message
    | .undecoded _ cause => decodeMessage cause
  readerInLog
    | .unread cause => Text.quote cause.message
    | .undecoded _ cause => Text.quote (decodeMessage cause)
  systemInLog cause := Text.quote cause.message

/-- Audits the process and returns the number of the status with which it ends. -/
def audit (options : CommandLine.Options) : IO UInt32 := do
  let path := Document.pathIn (Text.encode options.path)
  let loaded := Document.ofOpening path (← openFile (Text.decodeLossy path))
  let system ← host (loaded.toOption.getD {})
  let execution := Audit.execute wording path loaded options.minimum system
  for record in execution.log do
    if record.level.rank ≤ options.logLevel.rank then
      IO.eprintln s!"[{record.level.name}] {record.text}"
  IO.print execution.out
  IO.eprint execution.err
  return UInt32.ofNat execution.status.code

/-- The text that explains the command line. -/
def help : String :=
  "\n".intercalate [
    "Compares a running container with its configuration document",
    "",
    "Options:",
    "  --log-level <LEVEL>         off, error, warn, info, debug or trace [default: error]",
    "  --path <DIRECTORY>          the directory of config.json [default: .]",
    "  --compliance-level <LEVEL>  the weakest requirement whose failures count:",
    "                              may, should or must [default: must]",
    "  -h, --help                  prints this text",
    "  -V, --version               prints the version"]

/-- Does what the command line asks. -/
def run (arguments : List String) : IO UInt32 := do
  match CommandLine.parse arguments with
  | .ok (.audit options) => audit options
  | .ok .help => IO.println help; return 0
  | .ok .version => IO.println "container-audit 0.1.0"; return 0
  | .error e => IO.eprintln s!"error: {e.message}"; return 2

end ContainerAudit.Program

/-- The entry of the program; the arguments come without its name. -/
def main (arguments : List String) : IO UInt32 := ContainerAudit.Program.run arguments
