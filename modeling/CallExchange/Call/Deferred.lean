import CallExchange.Call.Result

set_option autoImplicit false

/-!
# Deferred results

The result of a call that is delivered later. While it waits it holds the exchange, so that the
delivery can still arrive after everyone else has let go. It is read at most once; after that it
reads as disconnected.
-/

namespace CallExchange

namespace Deferred

inductive State (ε : Type) where
  /-- The slot that the delivery settles. -/
  | waiting (k : Ticket)
  /-- The call failed before anything could be delivered; the failure until it is read. -/
  | failed (f : Option (Failure ε))

end Deferred

structure Deferred (α ε : Type) where
  state : Deferred.State ε
  codec : Codec α ε
  task : String
  port : PortId

namespace Deferred

variable {α ε : Type}

def isReady (d : Deferred α ε) (x : Exchange) : Bool :=
  match d.state with
  | .waiting k => (x.pending.slot k).isSettled
  | .failed _ => true

def holds (d : Deferred α ε) : Bool :=
  match d.state with
  | .waiting _ => true
  | .failed _ => false

def finish (thread : Option String) (d : Deferred α ε) (v : OneShot.Verdict Value) (x : Exchange) :
    Outcome Exchange (CallResult α ε) :=
  match v with
  | .abandoned => .returned (.error .disconnected) x
  | .value v => Reader.read ⟨d.task, thread⟩ d.codec v x

abbrev Act (α ε β : Type) := Deferred α ε × Exchange → Outcome (Deferred α ε × Exchange) β

/-- Reads a result whose slot is read by `f`. A failed call does not get as far as a slot. -/
def readBy (thread : Option String)
    (f : OneShot Value → Except Panic (Option (OneShot.Verdict Value) × OneShot Value)) :
    Act α ε (Option (CallResult α ε)) := fun (d, x) =>
  match d.state with
  | .failed failure =>
    .returned (some (.error (failure.getD .disconnected))) ({ d with state := .failed none }, x)
  | .waiting k =>
    match f (x.pending.slot k) with
    | .error p => .unwound p (d, x)
    | .ok (none, s) => .returned none (d, x.setSlot k s)
    | .ok (some v, s) => (d.finish thread v (x.setSlot k s)).map some (fun x => (d, x))

def tryTake (thread : Option String) : Act α ε (Option (CallResult α ε)) :=
  readBy thread fun s => .ok s.take

def poll (thread : Option String) (w : Waker) : Act α ε (Option (CallResult α ε)) :=
  readBy thread fun s => .ok (s.poll w)

def waitTimeout (thread : Option String) (t : Timeout) : Act α ε (Option (CallResult α ε)) :=
  readBy thread fun s => s.takeWithin t

def letGo (d : Deferred α ε) (x : Exchange) : Exchange := if d.holds then x.release else x

/-- Waits for the result and gives it up. A result that is not ready is kept and nothing is
answered. -/
def wait (thread : Option String) (d : Deferred α ε) (x : Exchange) :
    Outcome Exchange (Option (CallResult α ε)) :=
  (tryTake thread (d, x)).map id fun s => if d.isReady x then d.letGo s.2 else s.2

def drop (d : Deferred α ε) (x : Exchange) : Exchange :=
  let x :=
    if d.holds && !d.isReady x then
      let (wasOpen, x) := x.closePort d.port
      if wasOpen then x.note (.retiredUnread d.task d.port) else x
    else x
  d.letGo x

def diagnostic (d : Deferred α ε) (x : Exchange) : String :=
  "DeferredResult \x7b task: " ++ Text.quoted d.task ++ ", port: " ++ d.port.diagnostic
    ++ ", ready: " ++ toString (d.isReady x) ++ " \x7d"

end Deferred

end CallExchange
