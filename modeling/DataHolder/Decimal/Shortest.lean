/-!
# Shortest decimals

A binary floating-point number stands for every real that rounds to it. Its shortest
decimal is the point in that interval on the coarsest decimal grid that has one there,
the nearest to the number among those, and the even one of two equally near.
`coarsest` searches the grids from the coarse end in exact arithmetic.
-/

namespace DataHolder.Decimal

/-- A positive number `significand · 2 ^ exponent` and how far its neighbours are: the
half-way points are `half` below and one half unit above, in quarters of the unit. -/
structure Binary where
  significand : Nat
  exponent : Int
  /-- The distance to the half-way point below, in quarters of the unit: one where the
  neighbour below has a smaller unit, and otherwise two. -/
  below : Nat := 2

/-- The decimal `digits · 10 ^ exponent`. -/
structure Scaled where
  digits : Nat
  exponent : Int

/-- A power whose exponent is counted as nothing where it is negative. -/
private def power (base : Nat) (e : Int) : Nat := Nat.pow base e.toNat

/-- The point of the grid of multiples of `10 ^ e` that is nearest to the number, where
it rounds to the number; the half-way points round to a number with an even significand. -/
def Binary.onGrid? (b : Binary) (e : Int) : Option Scaled :=
  let quarter := power 2 (b.exponent - 2) * power 10 (-e)
  let unit := power 10 e * power 2 (2 - b.exponent)
  let value := 4 * b.significand * quarter
  let low := (4 * b.significand - b.below) * quarter
  let high := (4 * b.significand + 2) * quarter
  let inside (p : Nat) : Bool :=
    if b.significand % 2 = 0 then low ≤ p * unit && p * unit ≤ high
    else low < p * unit && p * unit < high
  let floor := value / unit
  let up := floor + 1
  let preferUp : Bool :=
    let down := value - floor * unit
    let rise := up * unit - value
    rise < down || (rise == down && floor % 2 == 1)
  match inside floor, inside up with
  | true, true => some ⟨if preferUp then up else floor, e⟩
  | true, false => some ⟨floor, e⟩
  | false, true => some ⟨up, e⟩
  | false, false => none

/-- The first hit on the `fuel` grids that start at `10 ^ e` and grow finer. -/
def Binary.coarsest (b : Binary) : Nat → Int → Scaled
  | 0, e => ⟨0, e⟩
  | fuel + 1, e =>
    match b.onGrid? e with
    | some s => s
    | none => b.coarsest fuel (e - 1)

/-- The shortest decimal of a number in the range of doubles, where the grids run from
`10 ^ 309` down past the smallest one that is ever needed. -/
def Binary.shortest (b : Binary) : Scaled := b.coarsest 660 309

/-- The finite double with this exponent field and fraction field, without its sign. -/
def Binary.ofFields (exponent fraction : Nat) : Binary :=
  if exponent = 0 then { significand := fraction, exponent := -1074 }
  else
    { significand := fraction + Nat.pow 2 52
      exponent := Int.ofNat exponent - 1075
      below := if fraction = 0 && exponent > 1 then 1 else 2 }

end DataHolder.Decimal
