import CallExchange.Settings

set_option autoImplicit false

/-!
# Notifiers

A notifier counts what has been delivered since the last wait. A wait reports whether there was
anything and starts the count anew. One kind keeps the count itself, behind a condition variable.
The other kind leaves it to a counter of the operating system, which it reaches through a
descriptor: that counter stops when it is full, and its calls can fail.
-/

namespace CallExchange

structure Notifier where
  kind : NotifierKind
  count : UInt64
  /-- The descriptor no longer refers to a counter. -/
  broken : Bool

namespace Notifier

def ofKind (k : NotifierKind) : Notifier := ⟨k, 0, false⟩

def hasDescriptor (n : Notifier) : Bool := n.kind = .eventFd

def fails (n : Notifier) : Bool := n.hasDescriptor && n.broken

def fullCount : UInt64 := 18446744073709551614

/-- The number of the failure of a call that would have to wait: a full counter takes nothing, and
one that is zero gives nothing. -/
def wouldBlock : Int32 := 11

def write (n : Notifier) : Except Int32 Notifier :=
  if n.broken then .error 9
  else if n.count = fullCount then .error wouldBlock
  else .ok { n with count := n.count + 1 }

/-- Whether a poll finds something to read. It always does where the counter is gone. -/
def isReadable (n : Notifier) : Bool := n.broken || n.count ≠ 0

def read (n : Notifier) : Except Int32 (UInt64 × Notifier) :=
  if n.broken then .error 21
  else if n.count = 0 then .error wouldBlock
  else .ok (n.count, { n with count := 0 })

def drain (n : Notifier) : Except Fault (UInt64 × Notifier) :=
  match n.read with
  | .ok r => .ok r
  | .error e => if e = wouldBlock then .ok (0, n) else .error (.os e)

/-- Where a full counter takes nothing, a notification is pending already. -/
def notify (n : Notifier) : Except Fault Notifier :=
  match n.kind with
  | .condvar => .ok { n with count := n.count + 1 }
  | .eventFd =>
    match n.write with
    | .ok n => .ok n
    | .error e => if e = wouldBlock then .ok n else .error (.os e)

/-- A wait that is over: something has been delivered or its time is up. -/
def wait (n : Notifier) : Except Fault (Bool × Notifier) :=
  match n.kind with
  | .condvar => .ok (0 < n.count, { n with count := 0 })
  | .eventFd =>
    if n.isReadable then n.drain.map fun r => (0 < r.1, r.2) else .ok (false, n)

def isIdle (n : Notifier) : Bool :=
  match n.kind with
  | .condvar => n.count = 0
  | .eventFd => !n.isReadable

theorem notify_eq (n : Notifier) : n.notify =
    if n.fails then .error (.os 9)
    else if n.hasDescriptor && n.count = fullCount then .ok n
    else .ok { n with count := n.count + 1 } := by
  obtain ⟨kind, count, broken⟩ := n
  cases kind with
  | condvar => rfl
  | eventFd =>
    cases broken with
    | true => rfl
    | false =>
      by_cases hfull : count = fullCount
      · subst hfull
        rfl
      · simp [notify, write, fails, hasDescriptor, hfull]

theorem wait_eq (n : Notifier) : n.wait =
    if n.fails then .error (.os 21) else .ok (n.count ≠ 0, { n with count := 0 }) := by
  have hpos : ∀ c : UInt64, decide (0 < c) = decide (c ≠ 0) := fun c => by
    rw [decide_eq_decide, UInt64.pos_iff_ne_zero]
  obtain ⟨kind, count, broken⟩ := n
  cases kind with
  | condvar => exact congrArg (fun b => Except.ok (b, _)) (hpos count)
  | eventFd =>
    cases broken with
    | true => rfl
    | false =>
      by_cases hzero : count = 0
      · subst hzero
        rfl
      · simp [wait, isReadable, drain, read, fails, hasDescriptor, hzero, hpos, Except.map]

theorem isIdle_eq (n : Notifier) : n.isIdle = (!n.fails && n.count = 0) := by
  obtain ⟨kind, count, broken⟩ := n
  cases kind with
  | condvar => rfl
  | eventFd => cases broken <;> simp [isIdle, isReadable, fails, hasDescriptor]

/-- Makes a counter of the operating system fail from now on; whether this is one. -/
def breakDescriptor (n : Notifier) : Bool × Notifier :=
  (n.hasDescriptor, { n with broken := n.hasDescriptor || n.broken })

def saturate (n : Notifier) : Bool × Notifier :=
  (n.hasDescriptor, if n.hasDescriptor then { n with count := fullCount } else n)

inductive Command where
  | notify
  /-- A wait of at most `t`, with a notification of another thread during it or without. -/
  | wait (t : Span) (notified : Bool)

inductive Answer where
  | done
  | flag (b : Bool)
  | failed (f : Fault)

def notified (n : Notifier) : Answer × Notifier :=
  match n.notify with
  | .ok n => (.done, n)
  | .error f => (.failed f, n)

def waited (n : Notifier) : Answer × Notifier :=
  match n.wait with
  | .ok (b, n) => (.flag b, n)
  | .error f => (.failed f, n)

def apply (n : Notifier) : Command → Answer × Notifier
  | .notify => n.notified
  | .wait _ false => n.waited
  | .wait t true =>
    if n.isIdle && t.patient then n.notified.2.waited
    else
      let (answer, n) := n.waited
      (answer, n.notified.2)

end Notifier

end CallExchange
