import CallExchange.Exchange.Lifetime

set_option autoImplicit false

/-!
# Running scripts

Scripts run on a stage: the exchange, the ports that scripts have kept, and a trace of what they
did. A callback runs on the stage of whoever invoked it and may invoke others or drain the queue, so
a number bounds how deep scripts may call each other and how many queued calls one drain may run; a
run that stays below the bound does not depend on it. A script that aborts leaves the stage as it is
at that moment.
-/

namespace CallExchange

inductive Reply where
  | nothing
  | done
  | flag (b : Bool)
  | count (n : Nat)
  | delivery (d : Delivery)
  | kept (n : Nat)
  | port (p : PortId) (diagnostic : String)
  | portName (name : Option String)
  | token (t : Token)
  | value (v : Option Value)
  | counters (c : Counters)
  | fault (f : Fault)
  | exchangeGone
  | noHandle

inductive Event where
  | reply (r : Reply)
  | call (label : String) (args : List Value)

structure Stage where
  exchange : Exchange
  /-- The ports that scripts have kept, by number. -/
  kept : List PortId
  trace : List Event

namespace Stage

abbrev Act (α : Type) := Stage → Outcome Stage α

def put (s : Stage) (x : Exchange) : Stage := { s with exchange := x }
def see (s : Stage) (e : Event) : Stage := { s with trace := s.trace ++ [e] }

def keep (s : Stage) (p : PortId) : Nat × Stage :=
  (s.kept.length, { s with kept := s.kept ++ [p] })

def on {α : Type} (s : Stage) (r : α × Exchange) (answer : α → Reply) : Outcome Stage Reply :=
  .returned (answer r.1) (s.put r.2)

def answer (s : Stage) (r : Reply) : Outcome Stage Reply := .returned r s

def portInfo (p : PortId) : Reply :=
  .port p ("NativePort \x7b id: " ++ p.diagnostic ++ ", ctx: (Weak) \x7d")

def replyToCall : Except Fault Unit → Reply
  | .ok () => .done
  | .error f => .fault f

def replyToDrain : Except Fault Nat → Reply
  | .ok n => .count n
  | .error f => .fault f

def notify (s : Stage) : Outcome Stage Reply :=
  match s.exchange.notifier.notify with
  | .ok n => .returned .done (s.put { s.exchange with notifier := n })
  | .error f => .returned (.fault f) s

def whileUp (s : Stage) (f : Exchange → Outcome Stage Reply) : Outcome Stage Reply :=
  if s.exchange.isGone then s.answer .exchangeGone else f s.exchange

def withPort (s : Stage) (p : Option PortId) (f : PortId → Outcome Stage Reply) :
    Outcome Stage Reply :=
  match p with
  | some p => f p
  | none => s.answer .noHandle

/-- One action of a script that was given the port `own`, if any. -/
def run (invoke : Value → Act (Except Fault Unit)) (drain : Act (Except Fault Nat))
    (own : Option PortId) (a : Action) (s : Stage) : Outcome Stage Reply :=
  match a with
  | .own v => s.withPort own fun p => s.on (s.exchange.deliver p v) .delivery
  | .ownClosed => s.withPort own fun p => s.answer (.flag (s.exchange.isDead p))
  | .keep => s.withPort own fun p => .returned (.kept (s.keep p).1) (s.keep p).2
  | .native n v => s.withPort s.kept[n]? fun p => s.on (s.exchange.deliver p v) .delivery
  | .nativeClosed n => s.withPort s.kept[n]? fun p => s.answer (.flag (s.exchange.isDead p))
  | .nativeInfo n => s.withPort s.kept[n]? fun p => s.answer (portInfo p)
  | .panic p => .unwound p s
  | .post p v => s.whileUp fun x => s.on (x.post p v) .delivery
  | .shutdown => s.whileUp fun x => .returned .nothing (s.put x.shutdown)
  | .closePort p => s.whileUp fun x => s.on (x.closePort p) .flag
  | .isOpen p => s.whileUp fun x => s.answer (.flag (x.isOpen p))
  | .portName p => s.whileUp fun x => s.answer (.portName (x.portName? p))
  | .register shape label body => s.whileUp fun x => s.on (x.register ⟨shape, label, body⟩) .token
  | .unregister t => s.whileUp fun x => s.on (x.unregister t) .flag
  | .invoke message => s.whileUp fun _ => (invoke message s).map replyToCall id
  | .drain => s.whileUp fun _ => (drain s).map replyToDrain id
  | .takeReverse => s.whileUp fun x => s.on x.takeReverse .value
  | .reverse message => s.whileUp fun x => s.on (x.post Exchange.reversePort message) .delivery
  | .notify => s.whileUp fun _ => s.notify
  | .callbackCount => s.whileUp fun x => s.answer (.count x.callbacks.size)
  | .counters => s.whileUp fun x => s.answer (.counters x.counters)

/-- The actions of a script in turn. What each answers is seen; an abort ends the script. -/
def runScript (invoke : Value → Act (Except Fault Unit)) (drain : Act (Except Fault Nat))
    (own : Option PortId) : Script → Act Unit
  | [], s => .returned () s
  | a :: rest, s =>
    (run invoke drain own a s).bind fun r s => runScript invoke drain own rest (s.see (.reply r))

/-- Runs queued reverse calls until none is left or one fails, and counts those that ran. -/
def drainWith (invoke : Value → Act (Except Fault Unit)) : Nat → Nat → Act (Except Fault Nat)
  | 0, _, _ => .exhausted
  | bound + 1, n, s =>
    match s.exchange.takeReverse with
    | (none, x) => .returned (.ok n) (s.put x)
    | (some message, x) =>
      (invoke message (s.put x)).bind fun r s =>
        match r with
        | .ok () => drainWith invoke bound (n + 1) s
        | .error f => .returned (.error f) s

def refuse (s : Stage) (f : Fault) : Outcome Stage (Except Fault Unit) :=
  .returned (.error f)
    (s.put ((s.exchange.record .callbackFailed).note (.reverseCallFailed f)))

/-- Runs one reverse call. A callback that aborts is not counted. -/
def invoke : Nat → Value → Act (Except Fault Unit)
  | 0, _, _ => .exhausted
  | bound + 1, message, s =>
    match s.exchange.callbacks.read message with
    | .error f => s.refuse f
    | .ok call =>
      let routine := call.callable.body
      (runScript (invoke bound) (drainWith (invoke bound) bound 0) none routine.body
        (s.see (.call routine.label call.args))).bind fun _ s =>
          .returned (.ok ()) (s.put (s.exchange.record .callbackInvoked))

def drain (bound : Nat) : Act (Except Fault Nat) := drainWith (invoke bound) bound 0

/-- One turn of the managed loop: a wait for a delivery, then the queued reverse calls. -/
def pump (bound : Nat) : Act (Except Fault Nat) := fun s =>
  match s.exchange.waitForDelivery with
  | .error f => .returned (.error f) s
  | .ok (_, x) => drain bound (s.put x)

def perform (bound : Nat) (own : Option PortId) (a : Action) : Act Reply :=
  run (invoke bound) (drain bound) own a

def performAll (bound : Nat) (own : Option PortId) (script : Script) : Act Unit :=
  runScript (invoke bound) (drain bound) own script

/-- A script on a thread of its own: what its actions answer, up to an abort, which ends that thread
alone. -/
def performApart (bound : Nat) : Script → Act (List Reply)
  | [], s => .returned [] s
  | a :: rest, s =>
    match perform bound none a s with
    | .returned r s => (performApart bound rest s).map (r :: ·) id
    | .unwound _ s => .returned [] s
    | .exhausted => .exhausted

/-- Scripts on threads of their own, one after the other, which is one of the orders in which they
may run. -/
def performThreads (bound : Nat) : List Script → Act (List (List Reply))
  | [], s => .returned [] s
  | script :: rest, s =>
    (performApart bound script s).bind fun rs s =>
      (performThreads bound rest s).map (rs :: ·) id

end Stage

end CallExchange
