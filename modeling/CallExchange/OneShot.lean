import CallExchange.Timeout
import CallExchange.Unwinding

set_option autoImplicit false

/-!
# One-shot slots

A slot that is settled once, with a value or without one, and whose value is taken once. The first
settlement stands. A slot that is polled before it is settled remembers who asked last, and the
settlement wakes that one.
-/

namespace CallExchange

structure Waker where
  id : Nat
deriving DecidableEq

inductive OneShot (α : Type) where
  | pending (waker : Option Waker)
  | ready (v : α)
  | taken
  | abandoned

namespace OneShot

variable {α : Type}

inductive Verdict (α : Type) where
  | value (v : α)
  | abandoned

def abandonedMessage : String := "completion abandoned"

def fresh : OneShot α := pending none

def isSettled : OneShot α → Bool
  | pending _ => false
  | _ => true

/-- Moves a pending slot on to `next` and names whom to wake; a settled slot stays as it is. -/
def settle (s next : OneShot α) : OneShot α × Option Waker :=
  match s with
  | pending w => (next, w)
  | s => (s, none)

def complete (v : α) (s : OneShot α) : OneShot α × Option Waker := s.settle (ready v)
def abandon (s : OneShot α) : OneShot α × Option Waker := s.settle abandoned

/-- What there is to take. A pending slot has nothing, and a value is there only once. -/
def take : OneShot α → Option (Verdict α) × OneShot α
  | pending w => (none, pending w)
  | ready v => (some (.value v), taken)
  | taken => (some .abandoned, taken)
  | abandoned => (some .abandoned, abandoned)

def poll (w : Waker) : OneShot α → Option (Verdict α) × OneShot α
  | pending _ => (none, pending (some w))
  | s => s.take

/-- A wait of at most `t`. The deadline is computed before the slot is looked at. -/
def takeWithin (t : Timeout) (s : OneShot α) : Except Panic (Option (Verdict α) × OneShot α) :=
  if t.noDeadline then .error .noDeadline else .ok s.take

theorem settle_of_isSettled (s next : OneShot α) (h : s.isSettled = true) :
    s.settle next = (s, none) := by
  cases s <;> simp_all [isSettled, settle]

theorem take_of_isSettled (s : OneShot α) (h : s.isSettled = true) (w : Waker) :
    s.poll w = s.take := by
  cases s <;> simp_all [isSettled, poll]

theorem take_fst_isSome (s : OneShot α) : s.take.1.isSome = s.isSettled := by
  cases s <;> rfl

inductive Read where
  | isSettled
  | tryTake
  | poll (w : Waker)
  /-- Blocks until the slot is settled and gives the handle up. -/
  | wait
  | waitTimeout (t : Timeout)
  | drop

inductive Answer (α : Type) where
  | settled (b : Bool)
  | pending
  | verdict (v : Verdict α)
  | timed (v : Verdict α)
  | timedOut
  | wouldBlock
  | unwound (p : Panic)
  | dropped
  | noHandle

def answerOf (none : Answer α) (some : Verdict α → Answer α) :
    Option (Verdict α) × OneShot α → Answer α × OneShot α
  | (.none, s) => (none, s)
  | (.some v, s) => (some v, s)

def Read.run (r : Read) (s : OneShot α) : Answer α × OneShot α :=
  match r with
  | .isSettled => (.settled s.isSettled, s)
  | .tryTake => answerOf .pending .verdict s.take
  | .poll w => answerOf .pending .verdict (s.poll w)
  | .wait => answerOf .wouldBlock .verdict s.take
  | .waitTimeout t =>
    match s.takeWithin t with
    | .error p => (.unwound p, s)
    | .ok a => answerOf .timedOut .timed a
  | .drop => (.dropped, s)

def Read.consumes (r : Read) (s : OneShot α) : Bool :=
  match r with
  | .drop => true
  | .wait => s.isSettled
  | _ => false

def Read.mustWait (r : Read) (s : OneShot α) : Bool :=
  match r with
  | .wait => !s.isSettled
  | .waitTimeout t => !s.isSettled && t.isPatient
  | _ => false

structure Pair (α : Type) where
  slot : OneShot α
  writer : Bool
  reader : Bool

namespace Pair

def fresh : Pair α := ⟨.fresh, true, true⟩

inductive Command (α : Type) where
  | complete (v : α)
  | dropWriter
  | read (r : Read)
  /-- Reads while another thread settles the slot, with a value or by dropping the writer. -/
  | race (r : Read) (v : Option α)

def settle (v : Option α) (p : Pair α) : Answer α × Option Waker × Pair α :=
  if p.writer then
    let (slot, woken) := match v with
      | some v => p.slot.complete v
      | none => p.slot.abandon
    (.dropped, woken, { p with slot := slot, writer := false })
  else (.noHandle, none, p)

def read (r : Read) (p : Pair α) : Answer α × Pair α :=
  if p.reader then
    let (answer, slot) := r.run p.slot
    (answer, { p with slot := slot, reader := !r.consumes p.slot })
  else (.noHandle, p)

def apply (p : Pair α) : Command α → Answer α × Option Waker × Pair α
  | .complete v => p.settle (some v)
  | .dropWriter => p.settle none
  | .read r =>
    let (answer, p) := p.read r
    (answer, none, p)
  | .race r v =>
    if p.reader && r.mustWait p.slot then
      let (_, woken, p) := p.settle v
      let (answer, p) := p.read r
      (answer, woken, p)
    else
      let (answer, p) := p.read r
      let (_, woken, p) := p.settle v
      (answer, woken, p)

end Pair

end OneShot

end CallExchange
