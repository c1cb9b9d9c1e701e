import CallExchange.Timeout
import CallExchange.Unwinding
import CallExchange.Value

set_option autoImplicit false

/-!
# Inboxes

The values delivered to a port and not yet received, in order of arrival. A closed inbox accepts
nothing more, but what it holds can still be received; it has ended when it is closed and empty.
-/

namespace CallExchange

structure Inbox where
  queue : List Value
  closed : Bool

namespace Inbox

def empty : Inbox := ⟨[], false⟩

def length (b : Inbox) : Nat := b.queue.length
def isEmpty (b : Inbox) : Bool := b.queue.isEmpty

def push (b : Inbox) (v : Value) : Bool × Inbox :=
  if b.closed then (false, b) else (true, { b with queue := b.queue ++ [v] })

def tryReceive (b : Inbox) : Option Value × Inbox :=
  match b.queue with
  | [] => (none, b)
  | v :: vs => (some v, { b with queue := vs })

inductive Received where
  | value (v : Value)
  | ended

/-- What a reader that is ready to wait gets at once; nothing while it has to wait. -/
def receive (b : Inbox) : Option Received × Inbox :=
  match b.tryReceive with
  | (some v, b) => (some (.value v), b)
  | (none, b) => (if b.closed then some .ended else none, b)

/-- A wait of at most `t`. The deadline is computed before the inbox is looked at. -/
def receiveWithin (t : Timeout) (b : Inbox) : Except Panic (Option Received × Inbox) :=
  if t.noDeadline then .error .noDeadline else .ok b.receive

def close (b : Inbox) : Bool × Inbox := (!b.closed, { b with closed := true })

def discard (b : Inbox) : Nat × Inbox := (b.length, { b with queue := [] })

def isIdle (b : Inbox) : Bool := b.isEmpty && !b.closed

theorem receive_isSome (b : Inbox) : b.receive.1.isSome = !b.isIdle := by
  rcases b with ⟨_ | ⟨v, vs⟩, _ | _⟩ <;> rfl

inductive Command where
  | push (v : Value)
  | tryReceive
  | receive
  | receiveWithin (t : Timeout)
  | close
  | discard

inductive Answer where
  | flag (b : Bool)
  | value (v : Option Value)
  | timedOut
  | wouldBlock
  | count (n : Nat)
  | unwound (p : Panic)

def Received.value? : Received → Option Value
  | value v => some v
  | ended => none

def received (none : Answer) : Option Received × Inbox → Answer × Inbox
  | (.none, b) => (none, b)
  | (some r, b) => (.value r.value?, b)

def apply (b : Inbox) : Command → Answer × Inbox
  | .push v => let (ok, b) := b.push v; (.flag ok, b)
  | .tryReceive => let (v, b) := b.tryReceive; (.value v, b)
  | .receive => received .wouldBlock b.receive
  | .receiveWithin t =>
    match b.receiveWithin t with
    | .error p => (.unwound p, b)
    | .ok r => received .timedOut r
  | .close => let (wasOpen, b) := b.close; (.flag wasOpen, b)
  | .discard => let (n, b) := b.discard; (.count n, b)

def Command.mustWait (c : Command) (b : Inbox) : Bool :=
  match c with
  | .receive => b.isIdle
  | .receiveWithin t => b.isIdle && t.isPatient
  | _ => false

def applyAll (b : Inbox) (cs : List Command) : Inbox :=
  cs.foldl (fun b c => (b.apply c).2) b

/-- A command while another thread does something else: before it if the command has to wait, and
after it otherwise. -/
def applyDuring (b : Inbox) (c : Command) (others : List Command) : Answer × Inbox :=
  if c.mustWait b then (b.applyAll others).apply c
  else
    let (answer, b) := b.apply c
    (answer, b.applyAll others)

end Inbox

end CallExchange
