import ContainerAudit.Audit
import ContainerAudit.Check.Devices
import ContainerAudit.Check.Finding
import ContainerAudit.Check.Identity
import ContainerAudit.Check.Invocation
import ContainerAudit.Check.Mounts
import ContainerAudit.Check.Privilege
import ContainerAudit.Check.Protection
import ContainerAudit.Check.Questions
import ContainerAudit.Check.Registry
import ContainerAudit.Check.Resource
import ContainerAudit.CommandLine
import ContainerAudit.Decimal.Shortest
import ContainerAudit.Document.Basic
import ContainerAudit.Document.Codec
import ContainerAudit.Document.Load
import ContainerAudit.Document.Mandatory
import ContainerAudit.Document.Settings
import ContainerAudit.Entries
import ContainerAudit.Execution
import ContainerAudit.Files.Opening
import ContainerAudit.Files.Probe
import ContainerAudit.Files.Tree
import ContainerAudit.Grade
import ContainerAudit.IoError
import ContainerAudit.Json.Decode
import ContainerAudit.Json.Numeral
import ContainerAudit.Json.Token
import ContainerAudit.Json.Tree
import ContainerAudit.Json.Value
import ContainerAudit.Json.Variant
import ContainerAudit.Layout
import ContainerAudit.Level
import ContainerAudit.Live.Capability
import ContainerAudit.Live.Device
import ContainerAudit.Live.Host
import ContainerAudit.Live.IdMap
import ContainerAudit.Live.Limit
import ContainerAudit.Live.Mount
import ContainerAudit.Live.ProcFile
import ContainerAudit.Live.Status
import ContainerAudit.Log
import ContainerAudit.Main
import ContainerAudit.Path.Lexical
import ContainerAudit.Path.Name
import ContainerAudit.Platform
import ContainerAudit.Replica.Basic
import ContainerAudit.Replica.Conforming
import ContainerAudit.System
import ContainerAudit.Text.Blank
import ContainerAudit.Text.Digits
import ContainerAudit.Text.Quoted
import ContainerAudit.Text.Shown
import ContainerAudit.Text.Utf8
import ContainerAudit.Proofs.Audit.Conforming
import ContainerAudit.Proofs.Audit.Isolation
import ContainerAudit.Proofs.Check.Conforming
import ContainerAudit.Proofs.Check.Finding
import ContainerAudit.Proofs.Check.Isolation
import ContainerAudit.Proofs.Check.MountOrder
import ContainerAudit.Proofs.Entries
import ContainerAudit.Proofs.List
import ContainerAudit.Proofs.Live.Capability
import ContainerAudit.Proofs.Live.Device
import ContainerAudit.Proofs.Live.Shadowing
import ContainerAudit.Proofs.Path.Ancestor
import ContainerAudit.Proofs.Path.Canonical
import ContainerAudit.Proofs.Path.Relative
import ContainerAudit.Proofs.Path.Shortest
import ContainerAudit.Proofs.Replica.Conforming
import ContainerAudit.Proofs.Check.Applicability
import ContainerAudit.Proofs.Audit.Applicability
import ContainerAudit.Proofs.Check.Collecting
import ContainerAudit.Proofs.Check.Rearranged
import ContainerAudit.Proofs.Audit.Rearranged
import ContainerAudit.Proofs.Audit.Line
import ContainerAudit.Proofs.Audit.Grade
import ContainerAudit.Proofs.Audit.Execution
import ContainerAudit.Proofs.Check.Privilege
import ContainerAudit.Proofs.Text.Word
import ContainerAudit.Proofs.Live.Mount
import ContainerAudit.Proofs.Check.Invocation
import ContainerAudit.Proofs.Check.Spelling
import ContainerAudit.Proofs.Document.Edited
import ContainerAudit.Proofs.Document.RoundTrip
import ContainerAudit.Proofs.Text.Digits
import ContainerAudit.Proofs.Live.IdMap
import ContainerAudit.Proofs.Live.Status
import ContainerAudit.Proofs.Check.Identity
import ContainerAudit.Proofs.Check.Devices
import ContainerAudit.Proofs.Document.Mandatory
import ContainerAudit.Proofs.Live.Sysctl
import ContainerAudit.Proofs.Files.Walk
import ContainerAudit.Proofs.Files.Probe
import ContainerAudit.Proofs.Live.CapabilityUpdate
import ContainerAudit.Proofs.Files.Break
import ContainerAudit.Proofs.Files.Readable
import ContainerAudit.Proofs.Check.Protection
import ContainerAudit.Proofs.Live.MountName
