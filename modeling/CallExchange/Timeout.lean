import CallExchange.Span

set_option autoImplicit false

/-!
# Limited waits

A read that waits for a limited time first computes its deadline, which is what the clock reads
plus the span. The clock counts seconds in a signed word of 64 bits, so a long span may have none.
-/

namespace CallExchange

structure Instant where
  seconds : Int64
  nanos : Nat
  nanos_lt : nanos < 1000000000

namespace Instant

def zero : Instant where
  seconds := 0
  nanos := 0
  nanos_lt := Span.zero.nanos_lt

def toNanos (i : Instant) : Int := i.seconds.toInt * 1000000000 + i.nanos

/-- The instant a span later, none if it is past the end of the clock. -/
def after? (i : Instant) (t : Span) : Option Instant :=
  let nanos := i.nanos + t.nanos
  let seconds := i.seconds.toInt + (t.seconds.toNat + nanos / 1000000000 : Nat)
  if seconds < 9223372036854775808 then
    some
      { seconds := Int64.ofInt seconds
        nanos := nanos % 1000000000
        nanos_lt := Nat.mod_lt _ (by decide) }
  else none

theorem ext_parts {i j : Instant} (hs : i.seconds.toInt = j.seconds.toInt)
    (hn : i.nanos = j.nanos) : i = j := by
  cases i
  cases j
  simp only [mk.injEq]
  exact ⟨Int64.toInt_inj.mp hs, hn⟩

theorem toNanos_inj {i j : Instant} : i.toNanos = j.toNanos ↔ i = j := by
  refine ⟨fun h => ?_, congrArg toNanos⟩
  have hi := i.nanos_lt
  have hj := j.nanos_lt
  unfold toNanos at h
  exact ext_parts (by omega) (by omega)

theorem toNanos_of_after? {i j : Instant} {t : Span} (h : i.after? t = some j) :
    j.toNanos = i.toNanos + t.toNanos := by
  simp only [after?] at h
  split at h
  case isTrue hlt =>
    cases h
    have hge := i.seconds.le_toInt
    have hseconds := Int64.toInt_ofInt_of_le (by omega) hlt
    simp only [toNanos, Span.toNanos, hseconds]
    omega
  case isFalse => cases h

/-- The clock goes on exactly as long as a signed word of 64 bits can count its seconds. -/
theorem after?_eq_some_iff {i j : Instant} {t : Span} :
    i.after? t = some j ↔ j.toNanos = i.toNanos + t.toNanos := by
  refine ⟨toNanos_of_after?, fun h => ?_⟩
  cases hafter : i.after? t with
  | some k =>
    have hk := toNanos_of_after? hafter
    rw [toNanos_inj.mp (hk.trans h.symm)]
  | none =>
    -- the sum is past the last second of the clock, but `j` is not
    have hj := j.seconds.toInt_lt
    have hjn := j.nanos_lt
    simp only [after?, ite_eq_right_iff, reduceCtorEq, imp_false] at hafter
    simp only [toNanos, Span.toNanos] at h
    omega

end Instant

/-- A limited wait: what the clock reads as it begins, and how long it may last. -/
structure Timeout where
  now : Instant
  span : Span

namespace Timeout

def noDeadline (t : Timeout) : Bool := (t.now.after? t.span).isNone

/-- Whether the wait is still going on after the other threads have had their turn. -/
def isPatient (t : Timeout) : Bool := t.span.patient && !t.noDeadline

theorem noDeadline_iff (t : Timeout) :
    t.noDeadline = true ↔ ∀ j : Instant, j.toNanos ≠ t.now.toNanos + t.span.toNanos := by
  simp only [noDeadline, Option.isNone_iff_eq_none, Option.eq_none_iff_forall_ne_some, ne_eq,
    Instant.after?_eq_some_iff]

/-- On a clock that reads two seconds, two seconds less than the whole signed word is too long. -/
example : noDeadline ⟨⟨2, 0, by decide⟩, ⟨9223372036854775806, 0, by decide⟩⟩ = true := by decide

theorem noDeadline_longest {now : Instant} (h : 0 ≤ now.seconds.toInt) :
    noDeadline ⟨now, .longest⟩ = true := by
  rw [noDeadline_iff]
  intro j hj
  have hlt := j.seconds.toInt_lt
  have hn := j.nanos_lt
  simp only [Instant.toNanos, Span.toNanos, Span.longest, UInt64.reduceToNat] at hj
  omega

end Timeout

end CallExchange
