import CallExchange.Buffer
import CallExchange.Counters
import CallExchange.Inbox
import CallExchange.Notifier
import CallExchange.Pending
import CallExchange.PortNames
import CallExchange.Script

set_option autoImplicit false

/-!
# The exchange

The owner of all ports. A port is pending, when it waits for the one delivery of a call, or a
broadcast port with a name and an inbox; port 0 is the broadcast port for reverse calls. The slots
and inboxes of retired ports are kept, since those who read them may still hold them.

An exchange lives as long as it has owners. It records what it reports, whom it wakes and what is
done to the buffers that entries return.
-/

namespace CallExchange

structure Exchange where
  settings : Settings
  nextPort : PortId
  pending : Pending
  ports : List (PortId × String)
  /-- The inboxes of all broadcast ports opened so far. -/
  inboxes : List (PortId × Inbox)
  names : PortNames
  callbacks : Callbacks Routine
  notifier : Notifier
  counters : Counters
  closed : Bool
  owners : Nat
  /-- What has been reported so far. -/
  journal : List Notice
  /-- Who has been woken so far. -/
  woken : List Waker
  /-- What has been done to returned buffers so far. -/
  bufferUses : List Buffer.Use

inductive Delivery where
  | completed
  | queued
  | dropped
deriving DecidableEq

namespace Exchange

def reversePort : PortId := ⟨0⟩

def create (s : Settings) : Except Fault Exchange :=
  s.check.map fun _ =>
    { settings := s
      nextPort := reversePort.next
      pending := .empty s.maxPending
      ports := [(reversePort, s.reverseName)]
      inboxes := [(reversePort, .empty)]
      names := .empty
      callbacks := .empty
      notifier := .ofKind s.notifier
      counters := .zero
      closed := false
      owners := 1
      journal := [.exchangeUp s.notifier.name s.maxPending reversePort]
      woken := []
      bufferUses := [] }

def note (x : Exchange) (n : Notice) : Exchange := { x with journal := x.journal ++ [n] }
def record (x : Exchange) (e : Counters.Event) : Exchange :=
  { x with counters := x.counters.record e }
def wake (x : Exchange) (ws : List Waker) : Exchange := { x with woken := x.woken ++ ws }
def use (x : Exchange) (u : Buffer.Use) : Exchange := { x with bufferUses := x.bufferUses ++ [u] }

def free (x : Exchange) (b : Buffer) : Exchange := (x.use (.freed b)).record .bufferFreed

def isGone (x : Exchange) : Bool := x.owners = 0

def pendingCalls (x : Exchange) : Nat := x.pending.size

def portName? (x : Exchange) (p : PortId) : Option String := x.ports.lookup p

/-- The open broadcast ports but for the one for reverse calls. -/
def openPorts (x : Exchange) : Nat := x.ports.length - (x.portName? reversePort).isSome.toNat

def isOpen (x : Exchange) (p : PortId) : Bool :=
  x.pending.contains p || (x.portName? p).isSome

/-- The inbox of a broadcast port, open or not. Any other port has a closed and empty one. -/
def inbox (x : Exchange) (p : PortId) : Inbox := (x.inboxes.lookup p).getD ⟨[], true⟩

def setInbox (x : Exchange) (p : PortId) (b : Inbox) : Exchange :=
  { x with inboxes := x.inboxes.map fun e => if e.1 == p then (p, b) else e }

def setSlot (x : Exchange) (k : Ticket) (s : OneShot Value) : Exchange :=
  { x with pending := x.pending.setSlot k s }

/-- Notifies the managed loop. A notifier that fails is reported and otherwise ignored. -/
def ring (x : Exchange) : Exchange :=
  match x.notifier.notify with
  | .ok n => { x with notifier := n }
  | .error f => x.note (.notifierFailed f)

def diagnosticFields (x : Exchange) : String :=
  "pending_calls: " ++ toString x.pendingCalls ++ ", open_ports: " ++ toString x.openPorts
    ++ ", closed: " ++ toString x.closed

def diagnostic (x : Exchange) : String :=
  "DispatcherContext \x7b " ++ x.diagnosticFields ++ " \x7d"

end Exchange

end CallExchange
