set_option autoImplicit false

/-!
# Spans of time

A span has whole seconds of 64 bits and nanoseconds below one second.
-/

namespace CallExchange

structure Span where
  seconds : UInt64
  nanos : Nat
  nanos_lt : nanos < 1000000000 := by decide

namespace Span

def zero : Span := { seconds := 0, nanos := 0 }

def longest : Span := { seconds := 18446744073709551615, nanos := 999999999 }

def ofMillis (ms : UInt64) : Span where
  seconds := ms / 1000
  nanos := ms.toNat % 1000 * 1000000
  nanos_lt := by omega

/-- Nanoseconds of a second or more count as seconds. -/
def ofParts (seconds : UInt64) (nanos : Nat) : Span where
  seconds := seconds + UInt64.ofNat (nanos / 1000000000)
  nanos := nanos % 1000000000
  nanos_lt := by omega

def toNanos (t : Span) : Nat := t.seconds.toNat * 1000000000 + t.nanos

def isZero (t : Span) : Bool := t.seconds = 0 && t.nanos = 0

/-- How long the other threads leave a waiting step alone before they take their turn. The length
is the delay of the recorded runs; theorems hold whatever it is. -/
def turn : Span := ofMillis 3

/-- Whether a wait of this span is still going on after the other threads have had their turn. -/
def patient (t : Span) : Bool := turn.toNanos ≤ t.toNanos

def fractionText (places part : Nat) : String :=
  let ds := (Nat.toDigits 10 (Nat.pow 10 places + part)).drop 1
  match (ds.reverse.dropWhile (· == '0')).reverse with
  | [] => ""
  | ds => String.ofList ('.' :: ds)

def diagnostic (t : Span) : String :=
  if t.seconds ≠ 0 then toString t.seconds.toNat ++ fractionText 9 t.nanos ++ "s"
  else if 1000000 ≤ t.nanos then
    toString (t.nanos / 1000000) ++ fractionText 6 (t.nanos % 1000000) ++ "ms"
  else if 1000 ≤ t.nanos then
    toString (t.nanos / 1000) ++ fractionText 3 (t.nanos % 1000) ++ "µs"
  else toString t.nanos ++ "ns"

end Span

end CallExchange
