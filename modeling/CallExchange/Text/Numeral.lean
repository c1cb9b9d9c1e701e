set_option autoImplicit false

/-!
# Decimal numerals

A numeral is one or more of the ten ASCII digits with at most one sign before them. It is read
only when its value lies in the wanted range. Leading zeros are allowed, separators are not.
-/

namespace CallExchange.Text.Numeral

def digit? (c : Char) : Option Nat :=
  if 48 ≤ c.toNat ∧ c.toNat ≤ 57 then some (c.toNat - 48) else none

/-- The value of the digits `cs`, continued from the value `n` of those before them. -/
def extend? (n : Nat) : List Char → Option Nat
  | [] => some n
  | c :: cs => (digit? c).bind fun d => extend? (10 * n + d) cs

def digits? : List Char → Option Nat
  | [] => none
  | c :: cs => extend? 0 (c :: cs)

def bounded (most : Nat) (n : Nat) : Option Nat :=
  if n ≤ most then some n else none

/-- A numeral without a sign or with a plus, of value at most `most`. -/
def unsigned? (most : Nat) : List Char → Option Nat
  | '+' :: cs => (digits? cs).bind (bounded most)
  | cs => (digits? cs).bind (bounded most)

def signed? (least most : Nat) : List Char → Option Int
  | '-' :: cs => ((digits? cs).bind (bounded least)).map fun n => -(n : Int)
  | cs => (unsigned? most cs).map fun n => (n : Int)

end CallExchange.Text.Numeral
