import ContainerAudit.Live.Limit
import ContainerAudit.Live.Status
import ContainerAudit.System

/-!
# The calling process in the files of the kernel

What a process reads about itself below `/proc`, as far as a file holds a plain value: its ids,
its groups, its limits, its score and the number of capabilities.
-/

namespace ContainerAudit.Host

open Text (words lines readNat)

/-- The number in a word below a bound. -/
def number? (bound : Nat) (word : List Char) : Option Nat := (readNat 10 bound word).toOption

/-- The numbers after a key in the status of a process. -/
def statusNumbers (status key : String) : List Nat :=
  (words ((statusValue? (lines status.toList) key).getD [])).filterMap (number? UInt32.size)

/-- The real id after a key, which is the first of its line. -/
def realId (status key : String) : UInt32 :=
  UInt32.ofNat ((statusNumbers status key).head?.getD 0)

/-- The supplementary groups. -/
def groups (status : String) : List UInt32 := (statusNumbers status "Groups:").map UInt32.ofNat

/-- The flag that keeps the process from gaining privileges. -/
def noNewPrivileges (status : String) : Bool := (statusNumbers status "NoNewPrivs:").head? = some 1

/-- The number of the last capability.  A kernel that does not tell it is taken to know all named
    ones; 63 stands for a kernel that knows 37 of them. -/
def lastCapability (content : Option String) : UInt32 :=
  match content.bind fun c => number? UInt32.size (Text.trim c.toList) with
  | some 63 => 36
  | some last => UInt32.ofNat (min last 40)
  | none => 40

/-- The adjustment of the out-of-memory score. -/
def oomScoreAdj (content : String) : Except IoError Int32 :=
  let text := Text.trim content.toList
  let (negative, digits) := match text with
    | '-' :: digits => (true, digits)
    | digits => (false, digits)
  match number? 0x80000000 digits with
  | some n => .ok (Int32.ofInt (if negative then -n else n))
  | none => .error ⟨.invalidData, s!"invalid oom_score_adj '{String.ofList text}'"⟩

/-- The limits in the words with which the lines of the limit file begin. -/
def limitLabels : List (String × String) :=
  [("RLIMIT_CPU", "Max cpu time"), ("RLIMIT_FSIZE", "Max file size"),
    ("RLIMIT_DATA", "Max data size"), ("RLIMIT_STACK", "Max stack size"),
    ("RLIMIT_CORE", "Max core file size"), ("RLIMIT_RSS", "Max resident set"),
    ("RLIMIT_NPROC", "Max processes"), ("RLIMIT_NOFILE", "Max open files"),
    ("RLIMIT_MEMLOCK", "Max locked memory"), ("RLIMIT_AS", "Max address space"),
    ("RLIMIT_LOCKS", "Max file locks"), ("RLIMIT_SIGPENDING", "Max pending signals"),
    ("RLIMIT_MSGQUEUE", "Max msgqueue size"), ("RLIMIT_NICE", "Max nice priority"),
    ("RLIMIT_RTPRIO", "Max realtime priority"), ("RLIMIT_RTTIME", "Max realtime timeout")]

/-- The value of a limit; one that does not limit anything is the largest number. -/
def limitValue? (word : List Char) : Option UInt64 :=
  if word = "unlimited".toList then some (0xFFFFFFFFFFFFFFFF)
  else (number? UInt64.size word).map UInt64.ofNat

/-- The limits with a name in the limit file. -/
def limits (table name : String) : Except IoError Limits :=
  let found : Option Limits := do
    let label ← limitLabels.lookup name
    let value ← statusValue? (lines table.toList) label
    match words value with
    | soft :: hard :: _ => return ⟨← limitValue? soft, ← limitValue? hard⟩
    | _ => none
  found.elim (.error (Limits.unknown name)) .ok

/-! ## Systems from answers -/

/-- A question with its answer. -/
structure Answered where
  question : Question
  answer : Except IoError question.Answer

/-- The answer, if it is to this question. -/
def Answered.to? (a : Answered) (q : Question) : Option (Except IoError q.Answer) :=
  if h : a.question = q then some (h ▸ a.answer) else none

/-- The error for a question that has not been put to the host. -/
def unasked : IoError := ⟨.unsupported, "not asked"⟩

/-- The system that answers as it has answered before. -/
def system (host : Platform) (uid gid : UInt32) (env : List (String × String))
    (answers : List Answered) : System where
  host := host
  uid := uid
  gid := gid
  env name := env.lookup name
  ask q := (answers.findSome? (·.to? q)).getD (.error unasked)

end ContainerAudit.Host
