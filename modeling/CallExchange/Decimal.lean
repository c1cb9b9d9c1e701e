set_option autoImplicit false

/-!
# Shortest decimals

The fewest decimal digits that tell a positive value from its neighbours. A value is given with
the interval of numbers that are nearer to it than to any other value of its format. On the grid
of `n` significant digits only the two points around the value can be the nearest; the first grid
with a point in the interval is taken, of two such points the nearer, and of two equally near ones
the upper.
-/

namespace CallExchange.Decimal

/-- The value `mid / den` among all numbers from `low / den` to `high / den`, the ends belonging
to the interval or not. -/
structure Interval where
  low : Nat
  mid : Nat
  high : Nat
  den : Nat
  closed : Bool

/-- The number `digits * 10 ^ exponent`. -/
structure Point where
  digits : Nat
  exponent : Int

namespace Interval

def scalePoint (i : Interval) (g : Int) (c : Nat) : Nat := c * i.den * Nat.pow 10 g.toNat
def scaleValue (g : Int) (n : Nat) : Nat := n * Nat.pow 10 (-g).toNat

def contains (i : Interval) (g : Int) (c : Nat) : Bool :=
  let p := i.scalePoint g c
  if i.closed then scaleValue g i.low ≤ p && p ≤ scaleValue g i.high
  else scaleValue g i.low < p && p < scaleValue g i.high

/-- The point of the grid of step `10 ^ g` that stands for the value, if one does. -/
def onGrid? (i : Interval) (g : Int) : Option Point :=
  let mid := scaleValue g i.mid
  let below := mid / i.scalePoint g 1
  let above := below + 1
  let nearer := if 2 * mid < i.scalePoint g below + i.scalePoint g above then below else above
  match i.contains g below, i.contains g above with
  | true, true => some ⟨nearer, g⟩
  | true, false => some ⟨below, g⟩
  | false, true => some ⟨above, g⟩
  | false, false => none

/-- The number of digits before the point of the value; not positive for a value below 1. Values
are taken to be above `10 ^ (-400)`. -/
def magnitude (i : Interval) : Int :=
  ((Nat.toDigits 10 (i.mid * Nat.pow 10 400 / i.den)).length : Int) - 400

/-- The shortest decimal of at most seventeen digits, which is enough for a value of 53 bits. -/
def shortest (i : Interval) : Point :=
  let k := i.magnitude
  let grids := (List.range 17).map fun n : Nat => k - (n + 1)
  (grids.findSome? i.onGrid?).getD ⟨0, 0⟩

end Interval

end CallExchange.Decimal
