/-!
# Numbers in JSON

A number is written as digits with an optional sign, fraction and exponent.  `Numeral` keeps
those parts; `Numeral.value` says which value a reader of typed fields finds in them.  A number
with neither fraction nor exponent is an integer if it fits 64 bits, signed or not; every other
number is a double.
-/

namespace ContainerAudit.Json

/-- The parts of a written number.  Digits run from the last one to the first. -/
structure Numeral where
  negative : Bool
  whole : List Nat
  fraction : Option (List Nat)
  /-- The sign (`true` for minus) and the digits of the exponent. -/
  exponent : Option (Bool × List Nat)

/-- The value of a written number. -/
inductive NumberValue where
  | integer (n : Int)
  | double (x : Float)
  /-- Too large for a double. -/
  | beyond

/-- Appends digits to `n` as long as the value fits 64 bits, and returns those left
    over with it. -/
def appendDigits : (n : Nat) → List Nat → Nat × List Nat
  | n, [] => (n, [])
  | n, d :: rest =>
    if n * 10 + d < UInt64.size then appendDigits (n * 10 + d) rest else (n, d :: rest)

/-- The power `10 ^ n` as a double. -/
def tenTo (n : Nat) : Float := Float.ofScientific 1 false n

/-- `x * 10 ^ exponent` in steps that each round once, or nothing if it leaves the doubles. -/
def scale (x : Float) (exponent : Int) : Option Float :=
  if exponent.natAbs ≤ 308 then
    let y := if 0 ≤ exponent then x * tenTo exponent.natAbs else x / tenTo exponent.natAbs
    if y.isInf then none else some y
  else if x == 0 then some x
  else if 0 ≤ exponent then none
  else scale (x / tenTo 308) (exponent + 308)
termination_by exponent.natAbs
decreasing_by omega

/-- The value of the digits of an exponent. -/
def exponentValue : Option (Bool × List Nat) → Int
  | none => 0
  | some (minus, digits) =>
    let n : Nat := digits.foldr (fun d n => n * 10 + d) 0
    if minus then -n else n

/-- The value of a written number.  Of a number that is no integer the leading digits count, as
    many as fit 64 bits; the others only keep their place. -/
def Numeral.value (n : Numeral) : NumberValue :=
  let (head, dropped) := appendDigits 0 n.whole.reverse
  let signed (x : Float) : NumberValue := .double (if n.negative then -x else x)
  if n.fraction.isNone && n.exponent.isNone && dropped.isEmpty then
    if !n.negative then .integer head
    else if 0 < head && head ≤ 0x8000000000000000 then .integer (-head)
    else signed head.toUInt64.toFloat
  else
    let places := (n.fraction.getD []).reverse
    let (significand, unused) := appendDigits head places
    let exponent := (dropped.length : Int) - (places.length - unused.length : Nat) +
      exponentValue n.exponent
    match scale significand.toUInt64.toFloat exponent with
    | some x => signed x
    | none => .beyond

end ContainerAudit.Json
