import ContainerAudit.IoError
import ContainerAudit.Live.Capability
import ContainerAudit.Text.Blank
import ContainerAudit.Text.Digits

/-!
# Capability sets in the status of a process

The status of a process is a text with a line per property.  The line of a capability set holds
its word in hexadecimal; kernels without ambient capabilities leave out the line of that set.
-/

namespace ContainerAudit

/-- The words with which the line of a set begins. -/
def CapabilitySet.statusLabel : CapabilitySet → String
  | bounding => "CapBnd:"
  | effective => "CapEff:"
  | inheritable => "CapInh:"
  | permitted => "CapPrm:"
  | ambient => "CapAmb:"

/-- The text after the key on the first line of a status that begins with the key. -/
def statusValue? (lines : List (List Char)) (key : String) : Option (List Char) :=
  (lines.findSome? fun line => key.toList.isPrefixOf? line).map Text.trim

namespace HeldCapabilities

/-- The word of a set in a status. -/
def statusMask (lines : List (List Char)) (set : CapabilitySet) : Except IoError UInt64 :=
  match statusValue? lines set.statusLabel with
  | some value =>
    match Text.readNat 16 UInt64.size value with
    | .ok n => .ok (UInt64.ofNat n)
    | .error e =>
      .error ⟨.invalidData,
        s!"invalid {set.statusLabel} value '{String.ofList value}': {e.message}"⟩
  | none =>
    if set = .ambient then .ok 0
    else .error ⟨.invalidData, s!"{set.statusLabel} missing from process status"⟩

/-- The capability sets in the status of a process.  The first set in the order of
    `CapabilitySet.all` that cannot be read decides the error. -/
def ofStatus (status : String) (lastCap : UInt32) : Except IoError HeldCapabilities :=
  let lines := Text.lines status.toList
  CapabilitySet.all.foldlM
    (fun held set => (statusMask lines set).map (held.setMask set)) (empty lastCap)

end HeldCapabilities

end ContainerAudit
