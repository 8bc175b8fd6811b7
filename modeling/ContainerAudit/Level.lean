import ContainerAudit.Json.Value
import ContainerAudit.Json.Variant

/-!
# Requirement levels

How strongly the container specification asks for what a check looks at.
-/

namespace ContainerAudit

/-- The key words of the specification, the weakest first. -/
inductive Level where
  | may
  | should
  | must
deriving DecidableEq, Repr

namespace Level

/-- The strength of a level. -/
def rank : Level → Nat
  | may => 0
  | should => 1
  | must => 2

instance : LE Level := ⟨fun a b => a.rank ≤ b.rank⟩

instance (a b : Level) : Decidable (a ≤ b) := inferInstanceAs (Decidable (a.rank ≤ b.rank))

protected theorem le_trans {a b c : Level} : a ≤ b → b ≤ c → a ≤ c := Nat.le_trans

/-- The key word of a level. -/
def name : Level → String
  | may => "MAY"
  | should => "SHOULD"
  | must => "MUST"

/-- All levels, the weakest first. -/
def all : List Level := [may, should, must]

/-- A text with the letters A to Z in lower case. -/
def lower (s : String) : String := s.map Char.toLower

/-- The level with a key word in any case, or the lower-case text that is none. -/
def parse (s : String) : Except String Level :=
  match lower s with
  | "may" => .ok may
  | "should" => .ok should
  | "must" => .ok must
  | other => .error other

/-- The message for a text that is no key word. -/
def unknownMessage (text : String) : String :=
  s!"Configuration error: unknown compliance level '{text}' (expected may, should or must)"

/-- The JSON form of a level. -/
def toJson (level : Level) : Json.Value := .text level.name

/-- Reads a level from a JSON text. -/
def ofJson (bytes : Text.Bytes) : Except Json.DecodeError Level :=
  Json.decodeVariant (all.map fun level => (level.name, level)) bytes

end Level

end ContainerAudit
