import ContainerAudit.Json.Decode

/-!
# Reading named variants from JSON

One of several named values is written as its name, or as an object with the name as its only
member and `null` as its value.  Nothing but a string can stand in the place of the name, also
inside the braces, and the name is judged before what follows it, so a variant is read from
tokens and not from a tree.
-/

namespace ContainerAudit.Json

/-- The value that begins with a token, as far as the kind of the value goes. -/
def Token.asTree : Token → Tree
  | .null => .null
  | .boolean value => .boolean value
  | .number numeral => .number numeral
  | .text content => .text content
  | .openArray => .array [] none
  | .openObject => .object [] none
  | .brokenText fault | .brokenScalar fault => .broken fault
  | .closeArray | .closeObject | .comma | .colon | .stray => .broken (.same .malformed)

/-- The variant with a name. -/
def variantNamed {α : Type} (variants : List (String × α)) (name : String) :
    Except DecodeError α :=
  match variants.lookup name with
  | some value => .ok value
  | none => .error (.misfit (.unknownVariant name (variants.map (·.1))))

/-- The variant that the first token names, with the tokens after it. -/
def readVariant {α : Type} (variants : List (String × α)) :
    List Token → Except DecodeError (α × List Token)
  | [] => .error (.fault .truncated)
  | .text content :: rest => do return (← variantNamed variants (← memberName content), rest)
  | .brokenText fault :: _ => .error (.fault fault.needed)
  | _ :: _ => .error (.fault .malformed)

/-- The tokens after a variant in braces, from the colon on. -/
def closeVariant : List Token → Except DecodeError (List Token)
  | [] | [.colon] | [.colon, .null] => .error (.fault .truncated)
  | .colon :: .null :: .closeObject :: rest => .ok rest
  | .colon :: .null :: _ => .error (.fault .malformed)
  | .colon :: token :: _ => .error (unexpected "unit" token.asTree)
  | _ :: _ => .error (.fault .malformed)

/-- Reads a whole JSON text that names a variant. -/
def decodeVariant {α : Type} (variants : List (String × α)) (bytes : Text.Bytes) :
    Except DecodeError α := do
  let (value, rest) ←
    match tokens bytes with
    | .openObject :: inside => do
      let (value, rest) ← readVariant variants inside
      pure (value, ← closeVariant rest)
    | outside => readVariant variants outside
  if !rest.isEmpty then throw (.fault .malformed)
  return value

end ContainerAudit.Json
