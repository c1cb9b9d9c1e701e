import CallExchange.Call.Result

set_option autoImplicit false

/-!
# Streams

The elements of a stream call, pulled one by one in the order of their delivery. A stream ends at
the end that its codec recognises, after an element that cannot be read, when its port is closed
under it, or when it is closed itself. It holds the exchange until then.
-/

namespace CallExchange

structure Stream (α ε : Type) where
  port : Exchange.Broadcast
  codec : Codec α ε
  task : String
  /-- The failure of the call itself, until it has been pulled. -/
  failure : Option (Failure ε)
  finished : Bool

namespace Stream

variable {α ε : Type}

def holds (s : Stream α ε) : Bool := !s.finished && s.failure.isNone

inductive Pull (α ε : Type) where
  | item (r : CallResult α ε)
  | done
  /-- Nothing has been delivered yet. -/
  | nothingYet

abbrev Act (α ε β : Type) := Stream α ε × Exchange → Outcome (Stream α ε × Exchange) β

def letGo (s : Stream α ε) (x : Exchange) : Exchange := if s.holds then x.release else x

def fail (s : Stream α ε) (f : Failure ε) (x : Exchange) : Stream α ε × Exchange :=
  let (_, x) := s.port.close x
  ({ s with failure := some f }, s.letGo x)

def finish (s : Stream α ε) (x : Exchange) : Stream α ε × Exchange :=
  let (_, x) := s.port.close x
  ({ s with finished := true }, s.letGo x)

def close (s : Stream α ε) (x : Exchange) : Stream α ε × Exchange :=
  if s.finished then (s, x)
  else
    let (wasOpen, x) := s.port.close x
    let x := if wasOpen then x.note (.closedByConsumer s.port.name) else x
    ({ s with finished := true }, s.letGo x)

def accept (thread : Option String) (r : Inbox.Received) : Act α ε (Pull α ε) := fun (s, x) =>
  match r with
  | .ended => .returned (.item (.error .disconnected)) (s.finish x)
  | .value v =>
    if s.codec.isEnd v then .returned .done (s.finish (x.note (.endOfStream s.port.name)))
    else
      match s.codec.decode v with
      | .error p => .unwound p (s, x)
      | .ok (.success a) => .returned (.item (.ok a)) (s, x)
      | .ok d =>
        let (s, x) := s.finish x
        let (result, x) := Reader.lift ⟨s.task, thread⟩ d x
        .returned (.item result) (s, x)

/-- A pull whose inbox is read by `f`. A failed or finished stream does not get as far. -/
def pullBy (thread : Option String)
    (f : Inbox → Except Panic (Option Inbox.Received × Inbox)) : Act α ε (Pull α ε) := fun (s, x) =>
  match s.failure with
  | some failure =>
    .returned (.item (.error failure)) ({ s with failure := none, finished := true }, x)
  | none =>
    if s.finished then .returned .done (s, x)
    else
      match f (x.inbox s.port.id) with
      | .error p => .unwound p (s, x)
      | .ok (none, b) => .returned .nothingYet (s, x.setInbox s.port.id b)
      | .ok (some r, b) => accept thread r (s, x.setInbox s.port.id b)

def next (thread : Option String) : Act α ε (Pull α ε) :=
  pullBy thread fun b => .ok b.receive

def nextTimeout (thread : Option String) (t : Timeout) : Act α ε (Pull α ε) :=
  pullBy thread fun b => b.receiveWithin t

/-- Pulls up to `bound` times, until the stream is done or has nothing yet; whether it is done. -/
def collectUpTo (thread : Option String) : Nat → Act α ε (List (CallResult α ε) × Bool)
  | 0, s => .returned ([], false) s
  | bound + 1, s =>
    (next thread s).bind fun pulled s =>
      match pulled with
      | .item r => (collectUpTo thread bound s).map (fun rest => (r :: rest.1, rest.2)) id
      | .done => .returned ([], true) s
      | .nothingYet => .returned ([], false) s

/-- All results that there are. Each pull but the last two takes a value out of the inbox. -/
def collect (thread : Option String) : Act α ε (List (CallResult α ε) × Bool) := fun (s, x) =>
  collectUpTo thread ((x.inbox s.port.id).length + 2) (s, x)

def drop (s : Stream α ε) (x : Exchange) : Exchange :=
  let (_, x) := s.port.close x
  s.letGo x

def isIdle (s : Stream α ε) (x : Exchange) : Bool := s.holds && (x.inbox s.port.id).isIdle

def diagnostic (s : Stream α ε) (x : Exchange) : String :=
  "CallStream \x7b task: " ++ Text.quoted s.task ++ ", port: " ++ s.port.diagnostic x
    ++ ", finished: " ++ toString s.finished ++ " \x7d"

end Stream

end CallExchange
