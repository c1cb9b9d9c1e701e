import CallExchange.Decimal

set_option autoImplicit false

/-!
# Binary floating-point numbers of 64 bits

A number is kept as its bits, so that the sign and payload of a NaN are never lost. Equality is
that of the numbers and not of the bits: a NaN equals nothing and the two zeros are equal.
-/

namespace CallExchange

structure Binary64 where
  bits : UInt64
deriving DecidableEq

namespace Binary64

def negative (x : Binary64) : Bool := 0x8000000000000000 ≤ x.bits.toNat
def biasedExponent (x : Binary64) : Nat := x.bits.toNat / 0x10000000000000 % 0x800
def fraction (x : Binary64) : Nat := x.bits.toNat % 0x10000000000000

def isNaN (x : Binary64) : Bool := x.biasedExponent = 2047 && x.fraction ≠ 0
def isInfinite (x : Binary64) : Bool := x.biasedExponent = 2047 && x.fraction = 0
def isZero (x : Binary64) : Bool := x.biasedExponent = 0 && x.fraction = 0

def same (x y : Binary64) : Bool :=
  !x.isNaN && !y.isNaN && (x.bits = y.bits || (x.isZero && y.isZero))

def significand (x : Binary64) : Nat :=
  if x.biasedExponent = 0 then x.fraction else 0x10000000000000 + x.fraction

def scale (x : Binary64) : Nat := max x.biasedExponent 1

/-- The numbers that round to a finite nonzero `x`, in units of a quarter of its last place. Below
a power of two the neighbour is only half as far away. -/
def interval (x : Binary64) : Decimal.Interval :=
  let m := x.significand
  let step := Nat.pow 2 (x.scale - 1077)
  let down := if x.fraction = 0 ∧ 1 < x.biasedExponent then 1 else 2
  { low := (4 * m - down) * step
    mid := 4 * m * step
    high := (4 * m + 2) * step
    den := Nat.pow 2 (1077 - x.scale)
    closed := m % 2 = 0 }

/-- How a decimal is laid out: numbers from `10 ^ (least - 1)` up to `10 ^ most` positionally, with
at least one digit on both sides of the point, all others with an exponent. -/
structure Layout where
  least : Int
  most : Int
  exponentMark : Char

def diagnosticLayout : Layout := ⟨-3, 16, 'e'⟩

def zeros (n : Int) : List Char := List.replicate n.toNat '0'

/-- The number `0.ds * 10 ^ k`, for digits `ds` that neither start nor end with a zero. -/
def Layout.write (l : Layout) (ds : List Char) (k : Int) : List Char :=
  if l.least ≤ k ∧ k ≤ l.most then
    if k ≤ 0 then '0' :: '.' :: (zeros (-k) ++ ds)
    else if k < ds.length then ds.take k.toNat ++ '.' :: ds.drop k.toNat
    else ds ++ zeros (k - ds.length) ++ ['.', '0']
  else
    let rest := match ds.drop 1 with
      | [] => []
      | r => '.' :: r
    ds.take 1 ++ rest ++ l.exponentMark :: (toString (k - 1)).toList

def digitsOf (p : Decimal.Point) : List Char × Int :=
  let ds := Nat.toDigits 10 p.digits
  ((ds.reverse.dropWhile (· == '0')).reverse, ds.length + p.exponent)

/-- The shortest decimal text that reads back as `x`. -/
def diagnostic (x : Binary64) : String :=
  let sign := if x.negative then ['-'] else []
  if x.isNaN then "NaN"
  else if x.isInfinite then String.ofList (sign ++ ['i', 'n', 'f'])
  else if x.isZero then String.ofList (sign ++ ['0', '.', '0'])
  else
    let (ds, k) := digitsOf x.interval.shortest
    String.ofList (sign ++ diagnosticLayout.write ds k)

end Binary64

end CallExchange
