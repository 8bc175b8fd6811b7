import ContainerAudit.Path.Lexical
import ContainerAudit.Text.Blank
import ContainerAudit.Text.Utf8

/-!
# The live mount table

The kernel lists the mounts of a process from the oldest to the newest, one on a line, as words.
Characters that would break the words are written as a backslash and three octal digits.  Of a
line the audit keeps the mountpoint, the type of the file system and the source.
-/

namespace ContainerAudit

/-- One mount. -/
structure LiveMount where
  mountpoint : String
  fstype : String
  source : String
deriving DecidableEq, Repr

/-- The mounts of a process, the oldest first. -/
abbrev MountTable := List LiveMount

namespace MountTable

open Text (Bytes)

/-- Whether a byte is an octal digit. -/
def isOctalDigit (b : UInt8) : Bool := 0x30 ≤ b && b ≤ 0x37

/-- The byte that three octal digits stand for. -/
def octalByte? (a b c : UInt8) : Option UInt8 :=
  if a ≤ 0x33 && isOctalDigit a && isOctalDigit b && isOctalDigit c then
    some (UInt8.ofNat ((a.toNat - 0x30) * 64 + (b.toNat - 0x30) * 8 + (c.toNat - 0x30)))
  else none

/-- Puts the bytes back that were written as escapes.  A backslash without three octal digits
    after it stays. -/
def unescape : Bytes → Bytes
  | 0x5C :: a :: b :: c :: rest =>
    match octalByte? a b c with
    | some byte => byte :: unescape rest
    | none => 0x5C :: unescape (a :: b :: c :: rest)
  | byte :: rest => byte :: unescape rest
  | [] => []

/-- The text of a word of the table. -/
def field (word : List Char) : String :=
  Text.decodeLossy (unescape (Text.encode (String.ofList word)))

/-- The mount on a line, if the line has the shape of one: six words, any number of optional
    ones, a dash, and three words more. -/
def parseLine (line : List Char) : Option LiveMount :=
  let words := Text.words line
  if words.length < 9 then none
  else
    match words[4]?, (words.drop 6).dropWhile (· ≠ ['-']) with
    | some mountpoint, _ :: fstype :: source :: _ =>
      some ⟨field mountpoint, field fstype, field source⟩
    | _, _ => none

/-- The table in a text; lines that do not have the shape of a mount are left out. -/
def parse (content : String) : MountTable := (Text.lines content.toList).filterMap parseLine

/-- The mounts at a path that is spelled as `Path.canonical` spells it. -/
def mountsAt (table : MountTable) (path : String) : MountTable :=
  table.filter fun r => Path.canonical r.mountpoint = path

/-- Whether something is mounted at `path` and nothing was mounted above it later. -/
def isActive (table : MountTable) (path : String) : Bool :=
  let newest := table.reverse
  let isAt (r : LiveMount) : Bool := Path.canonical r.mountpoint = path
  newest.any isAt &&
    !(newest.takeWhile (!isAt ·)).any fun r =>
      Path.isProperAncestor (Path.canonical r.mountpoint) path

end MountTable

end ContainerAudit
