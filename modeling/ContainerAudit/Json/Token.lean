import ContainerAudit.Json.Numeral
import ContainerAudit.Text.Utf8

/-!
# JSON tokens

`tokens` cuts a JSON text into tokens, reading it byte by byte with the states of `Scan`.  A
text may be read for its value or only be skipped, and skipping is more lenient: a skipped
string may hold bytes that are no UTF-8 and halves of surrogate pairs.  So a string token keeps
its text only if it has one, and a fault in the middle of a token says what each kind of reader
sees.  A token with a fault is the last one.
-/

namespace ContainerAudit.Json

open Text (Bytes)

/-- Why a text is not JSON. -/
inductive Fault where
  /-- A byte that the grammar does not allow at its place. -/
  | malformed
  /-- The text ends inside a value. -/
  | truncated
deriving DecidableEq

/-- A fault as seen by a reader that needs the value, and by one that only skips it. -/
structure Break where
  needed : Fault
  skipped : Fault
deriving DecidableEq

/-- A fault that every reader sees alike. -/
def Break.same (fault : Fault) : Break := ⟨fault, fault⟩

/-- A token of a JSON text. -/
inductive Token where
  | openArray
  | closeArray
  | openObject
  | closeObject
  | comma
  | colon
  | null
  | boolean (value : Bool)
  | number (numeral : Numeral)
  /-- A complete string; it has no content if a half of a surrogate pair or bytes that are no
      UTF-8 stand in it. -/
  | text (content : Option String)
  /-- A string that does not come to its end. -/
  | brokenText (fault : Break)
  /-- A number or a literal name that does not come to its end. -/
  | brokenScalar (fault : Break)
  /-- A byte that begins no token. -/
  | stray

/-! ## Strings -/

/-- What the reader of a string has found so far. -/
structure Content where
  /-- The bytes so far, the last one first; nothing once the string can have no text. -/
  bytes : Option Bytes
  /-- The first half of a surrogate pair, when the second half must come next. -/
  half : Option Nat

/-- The content of a string that has just begun. -/
def Content.empty : Content := ⟨some [], none⟩

/-- The content once the string can have no text. -/
def Content.lost : Content := ⟨none, none⟩

/-- Adds bytes that stand for themselves. -/
def Content.push (c : Content) (bytes : Bytes) : Content :=
  if c.half.isSome then .lost else { c with bytes := c.bytes.map (bytes.reverse ++ ·) }

/-- Adds the UTF-16 unit of an escape `\u`. -/
def Content.pushUnit (c : Content) (unit : Nat) : Content :=
  let trailing := 0xDC00 ≤ unit && unit ≤ 0xDFFF
  match c.half with
  | some half =>
    if trailing then
      Content.push ⟨c.bytes, none⟩
        (String.utf8EncodeChar (Char.ofNat (0x10000 + (half - 0xD800) * 0x400 + (unit - 0xDC00))))
    else .lost
  | none =>
    if trailing then .lost
    else if 0xD800 ≤ unit && unit ≤ 0xDBFF then { c with half := some unit }
    else c.push (String.utf8EncodeChar (Char.ofNat unit))

/-- The text of a complete string. -/
def Content.text (c : Content) : Option String :=
  if c.half.isSome then none else c.bytes.bind fun bytes => Text.decode? bytes.reverse

/-- What each reader sees at the end of a JSON text inside a string. -/
def Content.cut (c : Content) : Break :=
  ⟨if c.bytes.isNone then .malformed else .truncated, .truncated⟩

/-- The byte that an escape with one letter stands for. -/
def escaped? (letter : UInt8) : Option UInt8 :=
  if letter == 0x22 || letter == 0x5C || letter == 0x2F then some letter
  else if letter == 0x62 then some 0x08
  else if letter == 0x66 then some 0x0C
  else if letter == 0x6E then some 0x0A
  else if letter == 0x72 then some 0x0D
  else if letter == 0x74 then some 0x09
  else none

/-- The value of a hexadecimal digit. -/
def hexDigit? (b : UInt8) : Option Nat :=
  if 0x30 ≤ b && b ≤ 0x39 then some (b.toNat - 0x30)
  else if 0x41 ≤ b && b ≤ 0x46 then some (b.toNat - 0x41 + 10)
  else if 0x61 ≤ b && b ≤ 0x66 then some (b.toNat - 0x61 + 10)
  else none

/-- The value of hexadecimal digits, if all of them are digits. -/
def hexValue? (digits : Bytes) : Option Nat :=
  digits.foldl (fun n b => n.bind fun n => (hexDigit? b).map (n * 16 + ·)) (some 0)

/-! ## The states between two bytes -/

/-- The part of a number that comes next. -/
inductive NumberPlace where
  /-- A digit must follow the minus sign. -/
  | sign
  /-- A leading zero, which no digit follows. -/
  | zero
  | whole
  /-- A digit must follow the point. -/
  | point
  | fraction
  /-- A sign or a digit must follow the mark of the exponent. -/
  | mark
  /-- A digit must follow the sign of the exponent. -/
  | exponentSign
  | exponent

/-- Where the reader stands between two bytes. -/
inductive Scan where
  | between
  /-- Inside a literal name; `rest` is still to come. -/
  | literal (rest : Bytes) (token : Token)
  | number (place : NumberPlace) (numeral : Numeral)
  | string (content : Content)
  /-- After a backslash in a string. -/
  | escape (content : Content)
  /-- After the `u` of an escape; `digits` have been read. -/
  | unit (content : Content) (digits : Bytes)
  /-- After a fault; nothing counts any more. -/
  | stopped

/-- The state after a byte that stands between tokens, and the token it is, if it is one. -/
def begin (b : UInt8) : List Token × Scan :=
  let number (place : NumberPlace) (negative : Bool) (whole : List Nat) : List Token × Scan :=
    ([], .number place ⟨negative, whole, none, none⟩)
  if b == 0x20 || b == 0x09 || b == 0x0A || b == 0x0D then ([], .between)
  else if b == 0x5B then ([.openArray], .between)
  else if b == 0x5D then ([.closeArray], .between)
  else if b == 0x7B then ([.openObject], .between)
  else if b == 0x7D then ([.closeObject], .between)
  else if b == 0x2C then ([.comma], .between)
  else if b == 0x3A then ([.colon], .between)
  else if b == 0x22 then ([], .string .empty)
  else if b == 0x2D then number .sign true []
  else if b == 0x30 then number .zero false [0]
  else if 0x31 ≤ b && b ≤ 0x39 then number .whole false [b.toNat - 0x30]
  else if b == 0x6E then ([], .literal [0x75, 0x6C, 0x6C] .null)
  else if b == 0x74 then ([], .literal [0x72, 0x75, 0x65] (.boolean true))
  else if b == 0x66 then ([], .literal [0x61, 0x6C, 0x73, 0x65] (.boolean false))
  else ([.stray], .stopped)

/-- The digit that a byte is. -/
def digit? (b : UInt8) : Option Nat :=
  if 0x30 ≤ b && b ≤ 0x39 then some (b.toNat - 0x30) else none

/-- A number with one more digit at the given place. -/
def Numeral.push (n : Numeral) (place : NumberPlace) (d : Nat) : Numeral :=
  match place with
  | .sign | .zero | .whole => { n with whole := d :: n.whole }
  | .point | .fraction => { n with fraction := some (d :: n.fraction.getD []) }
  | .mark | .exponentSign | .exponent =>
    let (minus, digits) := n.exponent.getD (false, [])
    { n with exponent := some (minus, d :: digits) }

/-- The place after a digit, unless no digit may stand here. -/
def NumberPlace.afterDigit (d : Nat) : NumberPlace → Option NumberPlace
  | .sign => some (if d = 0 then .zero else .whole)
  | .zero => none
  | .whole => some .whole
  | .point | .fraction => some .fraction
  | .mark | .exponentSign | .exponent => some .exponent

/-- Whether a number may end here. -/
def NumberPlace.isEnd : NumberPlace → Bool
  | .zero | .whole | .fraction | .exponent => true
  | .sign | .point | .mark | .exponentSign => false

/-- Whether a point may stand here. -/
def NumberPlace.allowsPoint : NumberPlace → Bool
  | .zero | .whole => true
  | _ => false

/-- Whether the mark of an exponent may stand here. -/
def NumberPlace.allowsMark : NumberPlace → Bool
  | .zero | .whole | .fraction => true
  | _ => false

/-- One byte inside a number.  A byte that cannot continue it ends it and stands between
    tokens. -/
def stepNumber (place : NumberPlace) (n : Numeral) (b : UInt8) : List Token × Scan :=
  let broken : List Token × Scan := ([.brokenScalar (.same .malformed)], .stopped)
  match digit? b with
  | some d =>
    match place.afterDigit d with
    | some next => ([], .number next (n.push place d))
    | none => broken
  | none =>
    if b == 0x2E && place.allowsPoint then ([], .number .point n)
    else if (b == 0x65 || b == 0x45) && place.allowsMark then ([], .number .mark n)
    else if (b == 0x2B || b == 0x2D) && place matches .mark then
      ([], .number .exponentSign { n with exponent := some (b == 0x2D, []) })
    else if place.isEnd then
      let (tokens, scan) := begin b
      (.number n :: tokens, scan)
    else broken

/-- One byte: the tokens that it completes and the state after it. -/
def step : Scan → UInt8 → List Token × Scan
  | .between, b => begin b
  | .literal [] token, b =>
    let (tokens, scan) := begin b
    (token :: tokens, scan)
  | .literal (expected :: rest) token, b =>
    if b = expected then
      if rest.isEmpty then ([token], .between) else ([], .literal rest token)
    else ([.brokenScalar (.same .malformed)], .stopped)
  | .number place n, b => stepNumber place n b
  | .string content, b =>
    if b == 0x22 then ([.text content.text], .between)
    else if b == 0x5C then ([], .escape content)
    else if b < 0x20 then ([.brokenText (.same .malformed)], .stopped)
    else ([], .string (content.push [b]))
  | .escape content, b =>
    if b == 0x75 then ([], .unit content [])
    else match escaped? b with
      | some byte => ([], .string (content.push [byte]))
      | none => ([.brokenText (.same .malformed)], .stopped)
  | .unit content digits, b =>
    let digits := digits ++ [b]
    if digits.length < 4 then ([], .unit content digits)
    else match hexValue? digits with
      | some unit => ([], .string (content.pushUnit unit))
      | none => ([.brokenText (.same .malformed)], .stopped)
  | .stopped, _ => ([], .stopped)

/-- The token that the end of the text completes or cuts off. -/
def Scan.atEnd : Scan → List Token
  | .between | .stopped => []
  | .literal [] token => [token]
  | .literal (_ :: _) _ => [.brokenScalar (.same .truncated)]
  | .number place n =>
    if place.isEnd then [.number n] else [.brokenScalar ⟨.truncated, .malformed⟩]
  | .string content | .escape content | .unit content _ => [.brokenText content.cut]

/-- The tokens of a text that is read from a state on. -/
def tokensFrom : Scan → Bytes → List Token
  | scan, [] => scan.atEnd
  | scan, b :: rest =>
    let (tokens, next) := step scan b
    tokens ++ tokensFrom next rest

/-- The tokens of a JSON text. -/
def tokens (bytes : Bytes) : List Token := tokensFrom .between bytes

end ContainerAudit.Json
