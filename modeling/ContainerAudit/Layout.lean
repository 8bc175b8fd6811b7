/-!
# The file system layout of a Linux container

What every Linux container is expected to provide, whatever its document says.
-/

namespace ContainerAudit.Layout

/-- Mountpoints and the file systems that belong there. -/
def filesystems : List (String × String) :=
  [("/proc", "proc"), ("/sys", "sysfs"), ("/dev/pts", "devpts"), ("/dev/shm", "tmpfs")]

/-- The device nodes that are always there. -/
def devices : List String :=
  ["/dev/null", "/dev/zero", "/dev/full", "/dev/random", "/dev/urandom", "/dev/tty", "/dev/ptmx"]

/-- The device node of a process with a terminal. -/
def console : String := "/dev/console"

/-- The device nodes that must be there. -/
def devicesFor (terminal : Bool) : List String :=
  if terminal then devices ++ [console] else devices

/-- Symbolic links and their targets. -/
def symlinks : List (String × String) :=
  [("/dev/fd", "/proc/self/fd"), ("/dev/stdin", "/proc/self/fd/0"),
    ("/dev/stdout", "/proc/self/fd/1"), ("/dev/stderr", "/proc/self/fd/2")]

end ContainerAudit.Layout
