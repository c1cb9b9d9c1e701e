import CallExchange.Exchange.Basic

set_option autoImplicit false

/-!
# Opening, posting to and closing ports

Every port gets a number of its own, also one that is refused afterwards because too many calls
are pending. A value goes to the pending call of its port, or else into the inbox of its port, or
is dropped.
-/

namespace CallExchange.Exchange

def allocate (x : Exchange) : PortId × Exchange :=
  (x.nextPort, { x with nextPort := x.nextPort.next })

def openSingle (x : Exchange) : Except Fault (PortId × Ticket) × Exchange :=
  if x.closed then (.error .closed, x)
  else
    let (p, x) := x.allocate
    match x.pending.register p with
    | .error f => (.error f, x)
    | .ok (k, pending) => (.ok (p, k), { x with pending := pending })

structure Broadcast where
  id : PortId
  name : String
deriving DecidableEq

def openBroadcast (x : Exchange) (task : String) : Except Fault Broadcast × Exchange :=
  if x.closed then (.error .closed, x)
  else
    let (p, x) := x.allocate
    let (name, names) := x.names.next task
    let x := { x with
      names := names
      ports := x.ports ++ [(p, name)]
      inboxes := x.inboxes ++ [(p, Inbox.empty)] }
    (.ok ⟨p, name⟩, x.note (.broadcastOpened name p))

def isIssued (x : Exchange) (p : PortId) : Bool := !p.isAbsent && p.raw < x.nextPort.raw

def drop (x : Exchange) (p : PortId) (why : DropReason) : Exchange :=
  let x := x.record .dropped
  if x.isIssued p then x.note (.dropped p why x.settings.warnOnDropped)
  else x.note (.neverIssued p)

def enqueue? (x : Exchange) (p : PortId) (v : Value) : Option Exchange :=
  match x.portName? p with
  | none => none
  | some _ =>
    match (x.inbox p).push v with
    | (true, b) => some (x.setInbox p b)
    | (false, _) => none

def post (x : Exchange) (p : PortId) (v : Value) : Delivery × Exchange :=
  if x.closed then (.dropped, x.drop p .exchangeClosed)
  else
    match x.pending.resolve? p v with
    | some (w, pending) =>
      (.completed, (({ x with pending := pending }.wake w.toList).record .completed).ring)
    | none =>
      match x.enqueue? p v with
      | some x => (.queued, (x.record .queued).ring)
      | none => (.dropped, x.drop p .noLivePort)

/-- A post from the other side, which may come after the exchange is gone. -/
def deliver (x : Exchange) (p : PortId) (v : Value) : Delivery × Exchange :=
  if x.isGone then (.dropped, x.note (.droppedAfterTeardown p)) else x.post p v

def isDead (x : Exchange) (p : PortId) : Bool := x.isGone || !x.isOpen p

def closeInbox (x : Exchange) (p : PortId) : Exchange := x.setInbox p (x.inbox p).close.2

def closeBroadcast (x : Exchange) (p : PortId) : Bool × Exchange :=
  match x.portName? p with
  | none => (false, x)
  | some name =>
    let x := { (x.closeInbox p) with ports := x.ports.filter fun e => !(e.1 == p) }
    (true, x.note (.broadcastClosed name p))

def cancelPending (x : Exchange) (p : PortId) : Bool × Exchange :=
  match x.pending.cancel? p with
  | none => (false, x)
  | some (w, pending) => (true, { x with pending := pending }.wake w.toList)

/-- Retires `p`, of whichever kind it is; whether it was open. The port for reverse calls cannot
be closed like this. -/
def closePort (x : Exchange) (p : PortId) : Bool × Exchange :=
  if p = reversePort then (false, x)
  else
    let (a, x) := x.closeBroadcast p
    let (b, x) := x.cancelPending p
    (a || b, x)

def takeReverse (x : Exchange) : Option Value × Exchange :=
  let (v, b) := (x.inbox reversePort).tryReceive
  (v, x.setInbox reversePort b)

def register (x : Exchange) (f : Callable Routine) : Token × Exchange :=
  let (t, callbacks) := x.callbacks.register f
  (t, { x with callbacks := callbacks })

def unregister (x : Exchange) (t : Token) : Bool × Exchange :=
  let (found, callbacks) := x.callbacks.unregister t
  (found, { x with callbacks := callbacks })

namespace Broadcast

/-- Closes the port from its managed end and throws away what is queued; whether it was open. -/
def close (b : Broadcast) (x : Exchange) : Bool × Exchange :=
  let (wasOpen, inbox) := (x.inbox b.id).close
  let x := x.setInbox b.id inbox
  let x := if x.isGone then x else (x.closePort b.id).2
  let (n, inbox) := (x.inbox b.id).discard
  let x := x.setInbox b.id inbox
  (wasOpen, if 0 < n then x.note (.valuesDiscarded b.name n) else x)

def diagnostic (b : Broadcast) (x : Exchange) : String :=
  let inbox := x.inbox b.id
  "BroadcastPort \x7b id: " ++ b.id.diagnostic ++ ", name: " ++ Text.quoted b.name
    ++ ", queued: " ++ toString inbox.length ++ ", closed: " ++ toString inbox.closed ++ " \x7d"

end Broadcast

end CallExchange.Exchange
