import CallExchange.Codec
import CallExchange.Exchange.Lifetime

set_option autoImplicit false

/-!
# Reading deliveries

What the maker of a call gets for a delivery: successes and application errors as they are, the
abort of the other side as a fatal failure, and what cannot be read as a breach of protocol. The
last two are reported.
-/

namespace CallExchange

/-- The task that a call runs, as it is named in messages, and the thread that reads its result. -/
structure Reader where
  task : String
  thread : Option String

namespace Reader

variable {α ε : Type}

def fatal (r : Reader) (message : String) (x : Exchange) : Failure ε × Exchange :=
  let abort := Abort.observed r.thread r.task message
  (.fatal abort, x.note (.aborted abort))

def lift (r : Reader) (d : Decoded α ε) (x : Exchange) : CallResult α ε × Exchange :=
  match d with
  | .success a => (.ok a, x)
  | .application e => (.error (.application e), x)
  | .abort message => let (f, x) := r.fatal message x; (.error f, x)
  | .malformed why =>
    (.error (.protocol (r.task ++ ": " ++ why)), x.note (.malformedDelivery r.task why))

def read (r : Reader) (c : Codec α ε) (v : Value) (x : Exchange) :
    Outcome Exchange (CallResult α ε) :=
  match c.decode v with
  | .error p => .unwound p x
  | .ok d => let (result, x) := r.lift d x; .returned result x

end Reader

end CallExchange
