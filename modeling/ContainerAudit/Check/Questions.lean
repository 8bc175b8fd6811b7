import ContainerAudit.Document.Basic
import ContainerAudit.Layout
import ContainerAudit.System

/-!
# The questions of an audit

Which questions the checks may ask about a document, so that a host can be asked all of them
before the checks run.
-/

namespace ContainerAudit.Document

/-- The questions that do not depend on the document. -/
def standingQuestions : List Question :=
  [.mounts, .capabilities, .groups, .workingDirectory, .arguments, .noNewPrivileges, .hostname,
    .oomScoreAdj, .idMap .uid, .idMap .gid, .writeProbe "/"] ++
    Layout.symlinks.map (.linkTarget ·.1)

/-- The questions that the process block leads to. -/
def processQuestions (p : Process) : List Question := p.rlimits.map (.limits ·.name)

/-- The questions that the block for Linux leads to. -/
def linuxQuestions (l : LinuxBlock) : List Question :=
  l.devices.map (.stat ·.path) ++ l.sysctl.entries.map (.sysctl ·.1) ++
    l.maskedPaths.map .isReadable ++ l.readonlyPaths.map .writeProbe

/-- All questions that the checks may ask about a document. -/
def questions (d : Document) : List Question :=
  standingQuestions ++ (Layout.devicesFor d.terminal).map .stat ++
    (d.process.map processQuestions).getD [] ++ (d.linux.map linuxQuestions).getD []

end ContainerAudit.Document
