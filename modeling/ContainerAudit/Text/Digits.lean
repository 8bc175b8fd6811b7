/-!
# Numbers written in digits

Reading unsigned numbers of a bounded size, with the reason why a text is not one, and writing
numbers in octal.
-/

namespace ContainerAudit.Text

/-- Why a text is not an unsigned number below the bound. -/
inductive NumberError where
  | empty
  | badDigit
  | tooLarge
deriving DecidableEq

/-- The wording of the reason. -/
def NumberError.message : NumberError → String
  | empty => "cannot parse integer from empty string"
  | badDigit => "invalid digit found in string"
  | tooLarge => "number too large to fit in target type"

/-- The value of a digit in a base of at most 36; letters count from ten in either case. -/
def digit? (base : Nat) (c : Char) : Option Nat :=
  let value :=
    if '0' ≤ c && c ≤ '9' then c.toNat - '0'.toNat
    else if 'a' ≤ c && c ≤ 'z' then c.toNat - 'a'.toNat + 10
    else if 'A' ≤ c && c ≤ 'Z' then c.toNat - 'A'.toNat + 10
    else 36
  if value < base then some value else none

/-- Reads further digits of a number whose value so far is `n`.  The first character that is
    no digit or carries the value to `bound` decides the error. -/
def readDigits (base bound : Nat) : (n : Nat) → List Char → Except NumberError Nat
  | n, [] => .ok n
  | n, c :: rest =>
    match digit? base c with
    | none => .error .badDigit
    | some d =>
      if n * base + d < bound then readDigits base bound (n * base + d) rest
      else .error .tooLarge

/-- Reads an unsigned number below `bound`: an optional plus sign and at least one digit. -/
def readNat (base bound : Nat) : List Char → Except NumberError Nat
  | [] => .error .empty
  | ['+'] => .error .badDigit
  | '+' :: digits => readDigits base bound 0 digits
  | digits => readDigits base bound 0 digits

/-- A number in octal, without leading zeros. -/
def octal (n : Nat) : String := String.ofList (Nat.toDigits 8 n)

end ContainerAudit.Text
