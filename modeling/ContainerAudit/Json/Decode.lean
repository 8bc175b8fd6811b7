import ContainerAudit.Decimal.Shortest
import ContainerAudit.Json.Tree
import ContainerAudit.Json.Value
import ContainerAudit.Text.Quoted

/-!
# Reading typed values from JSON

A reader takes the tree of a value and returns what it stands for, or the first problem that it
meets in the order of the text.  Records are read from objects, whose unknown members are
skipped, or from arrays that hold their fields in order.  A record type is written by the same
table of fields by which it is read.
-/

namespace ContainerAudit.Json

/-- What stands where something else was expected. -/
inductive Found where
  | null
  | boolean (value : Bool)
  | integer (value : Int)
  | double (value : Float)
  | text (value : String)
  | sequence
  | map

/-- The words for what was found. -/
def Found.describe : Found → String
  | null => "null"
  | boolean value => "boolean `" ++ toString value ++ "`"
  | integer value => "integer `" ++ toString value ++ "`"
  | double value => "floating point `" ++ Decimal.plainText value ++ "`"
  | text value => "string " ++ Text.quote value
  | sequence => "sequence"
  | map => "map"

/-- Why a well-formed value is not the one that was asked for. -/
inductive Misfit where
  | wrongType (found : Found) (expected : String)
  | outOfRange (value : Int) (expected : String)
  | wrongLength (count : Nat) (expected : String)
  | missingField (name : String)
  | duplicateField (name : String)
  | unknownVariant (name : String) (known : List String)

/-- The message for a misfit. -/
def Misfit.message : Misfit → String
  | wrongType found expected => s!"invalid type: {found.describe}, expected {expected}"
  | outOfRange value expected => s!"invalid value: integer `{value}`, expected {expected}"
  | wrongLength count expected => s!"invalid length {count}, expected {expected}"
  | missingField name => s!"missing field `{name}`"
  | duplicateField name => s!"duplicate field `{name}`"
  | unknownVariant name known =>
    let names := ", ".intercalate (known.map fun k => "`" ++ k ++ "`")
    s!"unknown variant `{name}`, expected one of {names}"

/-- Why a JSON text has no value of a type. -/
inductive DecodeError where
  | fault (fault : Fault)
  | misfit (misfit : Misfit)

/-- A reader of values of a type. -/
abbrev Decoder (α : Type) := Tree → Except DecodeError α

/-- The first fault that a reader meets who needs the value of a tree. -/
def needed (fault : Option Break) : Except DecodeError Unit :=
  fault.elim (.ok ()) fun fault => .error (.fault fault.needed)

/-- The error for a value of the wrong kind.  Numbers and strings are read to their end before
    their kind is judged, so a fault inside them comes first. -/
def unexpected (expected : String) (tree : Tree) : DecodeError :=
  let wrong (found : Found) : DecodeError := .misfit (.wrongType found expected)
  match tree with
  | .null => wrong .null
  | .boolean value => wrong (.boolean value)
  | .number numeral =>
    match numeral.value with
    | .integer value => wrong (.integer value)
    | .double value => wrong (.double value)
    | .beyond => .fault .malformed
  | .text (some value) => wrong (.text value)
  | .text none => .fault .malformed
  | .array _ _ => wrong .sequence
  | .object _ _ => wrong .map
  | .broken fault => .fault fault.needed

/-! ## Plain values -/

/-- Reads a string. -/
def decodeText : Decoder String
  | .text (some value) => .ok value
  | tree => .error (unexpected "a string" tree)

/-- Reads a truth value. -/
def decodeBool : Decoder Bool
  | .boolean value => .ok value
  | tree => .error (unexpected "a boolean" tree)

/-- Reads an integer between `low` and `high`. -/
def decodeInteger (expected : String) (low high : Int) : Decoder Int
  | .number numeral =>
    match numeral.value with
    | .integer value =>
      if low ≤ value ∧ value ≤ high then .ok value
      else .error (.misfit (.outOfRange value expected))
    | _ => .error (unexpected expected (.number numeral))
  | tree => .error (unexpected expected tree)

/-- Reads a natural number of 32 bits. -/
def decodeUInt32 : Decoder UInt32 := fun tree =>
  (decodeInteger "u32" 0 0xFFFFFFFF tree).map fun n => UInt32.ofNat n.toNat

/-- Reads a natural number of 64 bits. -/
def decodeUInt64 : Decoder UInt64 := fun tree =>
  (decodeInteger "u64" 0 0xFFFFFFFFFFFFFFFF tree).map fun n => UInt64.ofNat n.toNat

/-- Reads a signed number of 32 bits. -/
def decodeInt32 : Decoder Int32 := fun tree =>
  (decodeInteger "i32" (-0x80000000) 0x7FFFFFFF tree).map Int32.ofInt

/-- Reads a signed number of 64 bits. -/
def decodeInt64 : Decoder Int64 := fun tree =>
  (decodeInteger "i64" (-0x8000000000000000) 0x7FFFFFFFFFFFFFFF tree).map Int64.ofInt

/-- Reads a value that may be `null`. -/
def decodeOption {α : Type} (decode : Decoder α) : Decoder (Option α)
  | .null => .ok none
  | tree => (decode tree).map some

/-! ## Lists and maps -/

/-- Reads a list. -/
def decodeList {α : Type} (decode : Decoder α) : Decoder (List α)
  | .array items fault => do
    let values ← items.mapM decode
    needed fault
    return values
  | tree => .error (unexpected "a sequence" tree)

/-- The name of a member, for a reader that needs it. -/
def memberName : Option String → Except DecodeError String
  | some name => .ok name
  | none => .error (.fault .malformed)

/-- Reads the members of an object whose names are free, in their order. -/
def decodeMembers {α : Type} (decode : Decoder α) : Decoder (List (String × α))
  | .object members fault => do
    let values ← members.mapM fun (name, value) => do
      return (← memberName name, ← decode value)
    needed fault
    return values
  | tree => .error (unexpected "a map" tree)

/-! ## Readers with their writers -/

/-- How the values of a type are read and written. -/
structure Codec (α : Type) where
  decode : Decoder α
  encode : α → Value

namespace Codec

/-- Strings. -/
def text : Codec String := ⟨decodeText, .text⟩

/-- Truth values. -/
def boolean : Codec Bool := ⟨decodeBool, .boolean⟩

/-- Natural numbers of 32 bits. -/
def uint32 : Codec UInt32 := ⟨decodeUInt32, fun n => .integer n.toNat⟩

/-- Natural numbers of 64 bits. -/
def uint64 : Codec UInt64 := ⟨decodeUInt64, fun n => .integer n.toNat⟩

/-- Signed numbers of 32 bits. -/
def int32 : Codec Int32 := ⟨decodeInt32, fun n => .integer n.toInt⟩

/-- Signed numbers of 64 bits. -/
def int64 : Codec Int64 := ⟨decodeInt64, fun n => .integer n.toInt⟩

/-- Values that may be absent, which is written as `null`. -/
def option {α : Type} (c : Codec α) : Codec (Option α) :=
  ⟨decodeOption c.decode, fun value => value.elim .null c.encode⟩

/-- Lists. -/
def list {α : Type} (c : Codec α) : Codec (List α) :=
  ⟨decodeList c.decode, fun items => .array (items.map c.encode)⟩

/-- Maps, as the list of their members. -/
def members {α : Type} (c : Codec α) : Codec (List (String × α)) :=
  ⟨decodeMembers c.decode, fun members =>
    .object (members.map fun (name, value) => (name, c.encode value))⟩

end Codec

/-! ## Records -/

/-- A field of a record type: how its value is read into a record and written from one. -/
structure RecordField (α : Type) where
  name : String
  /-- Whether the field must be there. -/
  required : Bool
  read : Tree → Except DecodeError (α → α)
  write : α → Value

/-- A field that keeps its present value when it is absent. -/
def RecordField.optional {α β : Type} (name : String) (codec : Codec β) (get : α → β)
    (set : β → α → α) : RecordField α :=
  ⟨name, false, fun tree => (codec.decode tree).map set, fun record => codec.encode (get record)⟩

/-- A field that must be there. -/
def RecordField.mandatory {α β : Type} (name : String) (codec : Codec β) (get : α → β)
    (set : β → α → α) : RecordField α :=
  ⟨name, true, fun tree => (codec.decode tree).map set, fun record => codec.encode (get record)⟩

/-- A record type: its name, its fields in order and a record to start from. -/
structure Record (α : Type) where
  name : String
  fields : List (RecordField α)
  start : α

/-- How messages call an array with all fields of a record. -/
def Record.inElements {α : Type} (r : Record α) : String :=
  let ending := if r.fields.length = 1 then "" else "s"
  s!"struct {r.name} with {r.fields.length} element{ending}"

/-- Reads the remaining fields of a record from the remaining items of an array. -/
def Record.readItems {α : Type} (r : Record α) (fault : Option Break) :
    List (RecordField α) → List Tree → α → Except DecodeError α
  | [], [], record => do
    needed fault
    return record
  | [], _ :: _, _ => .error (.fault .malformed)
  | field :: fields, item :: items, record => do
    let set ← field.read item
    r.readItems fault fields items (set record)
  | field :: fields, [], record => do
    needed fault
    if field.required then
      let count := r.fields.length - (fields.length + 1)
      throw (.misfit (.wrongLength count r.inElements))
    r.readItems fault fields [] record

/-- Reads the remaining members of an object into a record; `seen` holds the names of the
    fields read before. -/
def Record.readMembers {α : Type} (r : Record α) :
    List (Option String × Tree) → (seen : List String) → α →
      Except DecodeError (List String × α)
  | [], seen, record => .ok (seen, record)
  | (name, value) :: rest, seen, record => do
    let name ← memberName name
    match r.fields.find? (·.name = name) with
    | none =>
      value.skip.mapError .fault
      r.readMembers rest seen record
    | some field =>
      if seen.contains name then throw (.misfit (.duplicateField name))
      let set ← field.read value
      r.readMembers rest (name :: seen) (set record)

/-- The reader of a record type. -/
def Record.decode {α : Type} (r : Record α) : Decoder α
  | .array items fault => r.readItems fault r.fields items r.start
  | .object members fault => do
    let (seen, record) ← r.readMembers members [] r.start
    needed fault
    match r.fields.find? fun field => field.required && !seen.contains field.name with
    | some field => throw (.misfit (.missingField field.name))
    | none => return record
  | tree => .error (unexpected ("struct " ++ r.name) tree)

/-- The JSON value of a record. -/
def Record.toJson {α : Type} (r : Record α) (record : α) : Value :=
  .object (r.fields.map fun field => (field.name, field.write record))

/-- A record type with the reader and the writer that its fields give. -/
def Record.codec {α : Type} (r : Record α) : Codec α := ⟨r.decode, r.toJson⟩

/-! ## Whole texts -/

/-- Reads a whole JSON text, after whose value nothing but white space may stand. -/
def decodeDocument {α : Type} (decode : Decoder α) (bytes : Text.Bytes) : Except DecodeError α := do
  let parsed := parse bytes
  let value ← decode parsed.tree
  if parsed.trailing then throw (.fault .malformed)
  return value

end ContainerAudit.Json
