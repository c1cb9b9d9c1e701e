import CallExchange.Exchange.Ports

set_option autoImplicit false

/-!
# Shutdown and ownership

A shutdown gives every pending call up, closes every port and forgets every callback, once. An
exchange is shut down at the latest when its last owner lets go of it.
-/

namespace CallExchange.Exchange

def closeInboxes (x : Exchange) (ps : List PortId) : Exchange := ps.foldl closeInbox x

def shutdown (x : Exchange) : Exchange :=
  if x.closed then x
  else
    let abandoned := x.pending.size
    let closing := x.ports.length
    let (ws, pending) := x.pending.abandonAll
    let x := { x with closed := true, pending := pending }.wake ws
    let x := { (x.closeInboxes (x.ports.map Prod.fst)) with ports := [] }
    let x := { x with callbacks := x.callbacks.clear }
    x.ring.note (.exchangeDown abandoned closing)

def hold (x : Exchange) : Exchange := { x with owners := x.owners + 1 }

def release (x : Exchange) : Exchange :=
  match x.owners with
  | 0 => x
  | 1 => { x.shutdown with owners := 0 }
  | n + 2 => { x with owners := n + 1 }

def waitForDelivery (x : Exchange) : Except Fault (Bool × Exchange) :=
  x.notifier.wait.map fun r => (r.1, { x with notifier := r.2 })

end CallExchange.Exchange
