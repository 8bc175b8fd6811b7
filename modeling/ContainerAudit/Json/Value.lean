/-!
# Writing JSON

The values that this library writes, and their text: no white space, members in the order given,
and only those characters of a string escaped that JSON does not allow in one.
-/

namespace ContainerAudit.Json

/-- A JSON value as a writer makes it. -/
inductive Value where
  | null
  | boolean (value : Bool)
  | integer (value : Int)
  | text (value : String)
  | array (items : List Value)
  | object (members : List (String × Value))

/-- A character inside a JSON string. -/
def escapeText (c : Char) : String :=
  if c = '"' then "\\\""
  else if c = '\\' then "\\\\"
  else if c = '\n' then "\\n"
  else if c = '\r' then "\\r"
  else if c = '\t' then "\\t"
  else if c = '\x08' then "\\b"
  else if c = '\x0c' then "\\f"
  else if c.toNat < 0x20 then
    "\\u00" ++ String.ofList [Nat.digitChar (c.toNat / 16), Nat.digitChar (c.toNat % 16)]
  else c.toString

/-- A text as a JSON string. -/
def renderText (s : String) : String :=
  "\"" ++ String.join (s.toList.map escapeText) ++ "\""

mutual

/-- The text of a value. -/
def Value.render : Value → String
  | .null => "null"
  | .boolean value => if value then "true" else "false"
  | .integer value => toString value
  | .text value => renderText value
  | .array items => "[" ++ ",".intercalate (renderItems items) ++ "]"
  | .object members => "\x7b" ++ ",".intercalate (renderMembers members) ++ "\x7d"

/-- The texts of the items of an array. -/
def renderItems : List Value → List String
  | [] => []
  | item :: rest => item.render :: renderItems rest

/-- The texts of the members of an object. -/
def renderMembers : List (String × Value) → List String
  | [] => []
  | (name, value) :: rest => (renderText name ++ ":" ++ value.render) :: renderMembers rest

end

end ContainerAudit.Json
