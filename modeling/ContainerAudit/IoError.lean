/-!
# Errors of reading and writing

Why the operating system did not answer a question.
-/

namespace ContainerAudit

/-- The kinds of errors that the operating system and readers of its files give. -/
inductive IoErrorKind where
  | notFound
  | permissionDenied
  | alreadyExists
  | notADirectory
  | isADirectory
  | directoryNotEmpty
  | readOnlyFilesystem
  | filesystemLoop
  | invalidInput
  | invalidData
  | invalidFilename
  | timedOut
  | writeZero
  | storageFull
  | quotaExceeded
  | fileTooLarge
  | notSeekable
  | staleHandle
  | resourceBusy
  | executableBusy
  | deadlock
  | crossesDevices
  | tooManyLinks
  | argumentListTooLong
  | wouldBlock
  | brokenPipe
  | connectionRefused
  | connectionReset
  | connectionAborted
  | notConnected
  | hostUnreachable
  | networkUnreachable
  | networkDown
  | addressInUse
  | addressNotAvailable
  | interrupted
  | unsupported
  | unexpectedEnd
  | outOfMemory
  | other
deriving DecidableEq, Repr

/-- An error with its text. -/
structure IoError where
  kind : IoErrorKind
  message : String
deriving DecidableEq

/-- Errors of system calls on paths, with the numbers that Linux gives them. -/
inductive Errno where
  | noEntry
  | denied
  | occupied
  | notDirectory
  | isDirectory
  | invalid
  | readOnly
  | nameTooLong
  | loop
deriving DecidableEq

/-- All errors. -/
def Errno.all : List Errno :=
  [noEntry, denied, occupied, notDirectory, isDirectory, invalid, readOnly, nameTooLong, loop]

/-- The error number. -/
def Errno.number : Errno → Nat
  | noEntry => 2
  | denied => 13
  | occupied => 17
  | notDirectory => 20
  | isDirectory => 21
  | invalid => 22
  | readOnly => 30
  | nameTooLong => 36
  | loop => 40

/-- The kind of error that an error number stands for. -/
def Errno.kind : Errno → IoErrorKind
  | noEntry => .notFound
  | denied => .permissionDenied
  | occupied => .alreadyExists
  | notDirectory => .notADirectory
  | isDirectory => .isADirectory
  | invalid => .invalidInput
  | readOnly => .readOnlyFilesystem
  | nameTooLong => .invalidFilename
  | loop => .filesystemLoop

/-- The words for an error number. -/
def Errno.text : Errno → String
  | noEntry => "No such file or directory"
  | denied => "Permission denied"
  | occupied => "File exists"
  | notDirectory => "Not a directory"
  | isDirectory => "Is a directory"
  | invalid => "Invalid argument"
  | readOnly => "Read-only file system"
  | nameTooLong => "File name too long"
  | loop => "Too many levels of symbolic links"

/-- The error that a system call answered. -/
def IoError.ofErrno (e : Errno) : IoError :=
  ⟨e.kind, s!"{e.text} (os error {e.number})"⟩

/-- A path name with a zero byte, which no system call takes. -/
def IoError.zeroByte : IoError :=
  ⟨.invalidInput, "file name contained an unexpected NUL byte"⟩

end ContainerAudit
