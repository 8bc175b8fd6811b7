/-!
# Shortest decimals

A finite double stands for all the reals that round to it.  `shortest` picks, among the decimals
that stand for the same double, one with the fewest digits, and of those the one nearest to the
double.  The decimals with a given number of places form a grid, so it looks for the coarsest
grid with a point that rounds to the double; all arithmetic is exact.

`plain` lays such a decimal out as the messages of this library do.
-/

namespace ContainerAudit

/-- The decimal `digits * 10 ^ exponent`. -/
structure Decimal where
  digits : Nat
  exponent : Int
deriving DecidableEq

namespace Decimal

/-- The numbers `mantissa * 2 ^ exponent`; `narrow` says that the next smaller double is only
    half as far away as the next larger one. -/
structure Binary where
  mantissa : Nat
  exponent : Int
  narrow : Bool

/-- The absolute value of the double with these bits, which is finite. -/
def Binary.ofBits (bits : UInt64) : Binary :=
  let fraction := (bits &&& (0xFFFFFFFFFFFFF : UInt64)).toNat
  let field := ((bits >>> 52) &&& (0x7FF : UInt64)).toNat
  if field = 0 then ⟨fraction, -1074, false⟩
  else ⟨fraction + 0x10000000000000, Int.ofNat field - 1075, fraction = 0 && 1 < field⟩

/-- The point of the grid of multiples of `10 ^ place` that rounds to `x`.  If both neighbours of
    `x` do, it is the nearer one, and the even one if they are equally near.

    With `quarter` a quarter of the distance to the next larger double, `x` is `4 * mantissa`
    quarters, and the reals that round to it reach two quarters up and, unless `narrow`, two
    down.  The ends belong to it if the mantissa is even. -/
def Binary.gridPoint? (x : Binary) (place : Int) : Option Nat :=
  let quarter := Nat.pow 2 (x.exponent - 2).toNat * Nat.pow 10 (-place).toNat
  let unit := Nat.pow 2 (2 - x.exponent).toNat * Nat.pow 10 place.toNat
  let value := 4 * x.mantissa * quarter
  let low := (4 * x.mantissa - if x.narrow then 1 else 2) * quarter
  let high := (4 * x.mantissa + 2) * quarter
  let rounds (d : Nat) : Bool :=
    if x.mantissa % 2 = 0 then low ≤ d * unit && d * unit ≤ high
    else low < d * unit && d * unit < high
  let below := value / unit
  let above := below + 1
  match rounds below, rounds above with
  | true, true =>
    let down := value - below * unit
    let up := above * unit - value
    if down < up ∨ (down = up ∧ below % 2 = 0) then some below else some above
  | true, false => some below
  | false, true => some above
  | false, false => none

/-- The shortest decimal that rounds to `x`, which is positive. -/
def Binary.shortest (x : Binary) : Decimal :=
  let places : List Int := (List.range 634).map fun i => 309 - Int.ofNat i
  (places.findSome? fun place => (x.gridPoint? place).map (⟨·, place⟩)).getD ⟨0, 0⟩

/-- A decimal as text: positional if the first digit stands at the fifth place after the point
    or to the left of it and at most at the sixteenth place before the point, with `.0` for
    integers; else with an exponent, which always has a sign. -/
def plain (x : Decimal) : String :=
  let digits := Nat.toDigits 10 x.digits
  let leading := x.exponent + digits.length - 1
  if -5 ≤ leading ∧ leading < 16 then
    if 0 ≤ x.exponent then
      String.ofList (digits ++ List.replicate x.exponent.toNat '0') ++ ".0"
    else if 0 ≤ leading then
      let whole := (leading + 1).toNat
      String.ofList (digits.take whole) ++ "." ++ String.ofList (digits.drop whole)
    else
      "0." ++ String.ofList (List.replicate (-leading - 1).toNat '0' ++ digits)
  else
    let rest := digits.drop 1
    String.ofList (digits.take 1) ++ (if rest.isEmpty then "" else "." ++ String.ofList rest) ++
      "e" ++ (if leading < 0 then "-" else "+") ++ toString leading.natAbs

/-- A finite double as text. -/
def plainText (x : Float) : String :=
  let bits := x.toBits
  let sign := if bits >>> 63 = 1 then "-" else ""
  let magnitude := Binary.ofBits bits
  sign ++ if magnitude.mantissa = 0 then "0.0" else magnitude.shortest.plain

end Decimal

end ContainerAudit
