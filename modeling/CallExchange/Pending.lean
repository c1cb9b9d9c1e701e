import CallExchange.Fault
import CallExchange.OneShot
import CallExchange.Value

set_option autoImplicit false

/-!
# Pending deliveries

The ports that wait for exactly one delivery. Registering a port issues a ticket, which is the
number of a one-shot slot; the slot outlives the port's entry and is read through the ticket. A port
that has been retired may be registered again and then gets a new ticket.
-/

namespace CallExchange

abbrev Ticket := Nat

structure Pending where
  limit : UInt64
  /-- The registered ports with their tickets, in order of registration. -/
  waiting : List (PortId × Ticket)
  /-- The slots of all tickets issued so far. -/
  slots : List (OneShot Value)

namespace Pending

def empty (limit : UInt64) : Pending := ⟨limit, [], []⟩

def size (r : Pending) : Nat := r.waiting.length
def contains (r : Pending) (p : PortId) : Bool := r.waiting.any fun e => e.1 == p
def ticket? (r : Pending) (p : PortId) : Option Ticket := r.waiting.lookup p

/-- The slot of a ticket. A ticket that was never issued reads as used up. -/
def slot (r : Pending) (k : Ticket) : OneShot Value := r.slots.getD k .taken

def setSlot (r : Pending) (k : Ticket) (s : OneShot Value) : Pending :=
  { r with slots := r.slots.set k s }

def register (r : Pending) (p : PortId) : Except Fault (Ticket × Pending) :=
  if r.limit.toNat ≤ r.size then .error (.registryFull r.limit)
  else if r.contains p then .error (.duplicatePort p)
  else .ok (r.slots.length,
    { r with waiting := r.waiting ++ [(p, r.slots.length)], slots := r.slots ++ [.fresh] })

/-- Takes the entry of `p` out and settles its slot by `f`; nothing if `p` is not registered. -/
def retire? (r : Pending) (p : PortId) (f : OneShot Value → OneShot Value × Option Waker) :
    Option (Option Waker × Pending) :=
  (r.ticket? p).map fun k =>
    let (s, woken) := f (r.slot k)
    (woken, { (r.setSlot k s) with waiting := r.waiting.filter fun e => !(e.1 == p) })

def resolve? (r : Pending) (p : PortId) (v : Value) : Option (Option Waker × Pending) :=
  r.retire? p (·.complete v)

def cancel? (r : Pending) (p : PortId) : Option (Option Waker × Pending) :=
  r.retire? p (·.abandon)

def giveUp (acc : List Waker × Pending) (e : PortId × Ticket) : List Waker × Pending :=
  match acc.2.cancel? e.1 with
  | some (woken, r) => (acc.1 ++ woken.toList, r)
  | none => acc

def abandonAll (r : Pending) : List Waker × Pending := r.waiting.foldl giveUp ([], r)

def read (r : Pending) (k : Ticket) (how : OneShot.Read) : OneShot.Answer Value × Pending :=
  let (answer, s) := how.run (r.slot k)
  (answer, r.setSlot k s)

/-- A table together with the handles that its registrations gave out, by number. -/
structure Held where
  table : Pending
  handles : List (Option Ticket)

namespace Held

inductive Command where
  | register (p : PortId)
  | resolve (p : PortId) (v : Value)
  | cancel (p : PortId)
  | abandonAll
  | contains (p : PortId)
  | isEmpty
  | read (handle : Nat) (r : OneShot.Read)

inductive Answer where
  | handle (n : Nat)
  | refused (f : Fault)
  | delivered
  | rejected (v : Value)
  | flag (b : Bool)
  | count (n : Nat)
  | read (a : OneShot.Answer Value)

def readHandle (h : Held) (n : Nat) (how : OneShot.Read) : OneShot.Answer Value × Held :=
  match h.handles[n]?.join with
  | none => (.noHandle, h)
  | some k =>
    let (answer, table) := h.table.read k how
    let handles := if how.consumes (h.table.slot k) then h.handles.set n none else h.handles
    (answer, ⟨table, handles⟩)

def apply (h : Held) : Command → Answer × List Waker × Held
  | .register p =>
    match h.table.register p with
    | .error f => (.refused f, [], h)
    | .ok (k, table) => (.handle h.handles.length, [], ⟨table, h.handles ++ [some k]⟩)
  | .resolve p v =>
    match h.table.resolve? p v with
    | none => (.rejected v, [], h)
    | some (woken, table) => (.delivered, woken.toList, { h with table := table })
  | .cancel p =>
    match h.table.cancel? p with
    | none => (.flag false, [], h)
    | some (woken, table) => (.flag true, woken.toList, { h with table := table })
  | .abandonAll =>
    let (woken, table) := h.table.abandonAll
    (.count h.table.size, woken, { h with table := table })
  | .contains p => (.flag (h.table.contains p), [], h)
  | .isEmpty => (.flag (h.table.size = 0), [], h)
  | .read n how =>
    let (answer, h) := h.readHandle n how
    (.read answer, [], h)

end Held

end Pending

end CallExchange
