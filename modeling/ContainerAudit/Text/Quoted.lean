import ContainerAudit.Text.Shown
import ContainerAudit.Text.Utf8

/-!
# Quoted texts in messages

A message that repeats an unexpected text puts it between quotation marks.  Quotation marks,
backslashes and characters that would not be visible are escaped, so that the message shows
exactly which text it was.
-/

namespace ContainerAudit.Text

/-- A number in hexadecimal with lower-case letters, without leading zeros. -/
def hexadecimal (n : Nat) : String := String.ofList (Nat.toDigits 16 n)

/-- A character inside quotation marks.  An apostrophe does not end a quoted text, so it stands
    for itself. -/
def escapeChar (c : Char) : String :=
  if c = '\x00' then "\\0"
  else if c = '\t' then "\\t"
  else if c = '\r' then "\\r"
  else if c = '\n' then "\\n"
  else if c = '"' then "\\\""
  else if c = '\\' then "\\\\"
  else if isShown c then c.toString
  else "\\u\x7b" ++ hexadecimal c.toNat ++ "\x7d"

/-- A byte inside quotation marks: two hexadecimal digits in upper case. -/
def escapeByte (b : UInt8) : String :=
  let digit (n : Nat) : Char := (Nat.digitChar n).toUpper
  "\\x" ++ String.ofList [digit (b.toNat / 16), digit (b.toNat % 16)]

/-- A text between quotation marks. -/
def quote (s : String) : String :=
  "\"" ++ String.join (s.toList.map escapeChar) ++ "\""

/-- A path name between quotation marks.  Bytes that are no character show one by one. -/
def quotePath (path : Bytes) : String :=
  let piece : Except Bytes Char → String
    | .ok c => escapeChar c
    | .error bytes => String.join (bytes.map escapeByte)
  "\"" ++ String.join ((pieces path).map piece) ++ "\""

end ContainerAudit.Text
