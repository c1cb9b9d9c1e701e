import CallExchange.Call.Issue

set_option autoImplicit false

/-!
# Sessions

A session is one client of an exchange: the dispatcher handle, by which it issues calls, and the
handles that its calls gave it, by number. Handles that were given up stay in the lists as `none`.
The exchange lives as long as the dispatcher handle, a waiting result or an open stream is held.
-/

namespace CallExchange

structure Session (α ε : Type) where
  stage : Stage
  dispatcher : Bool
  deferreds : List (Option (Deferred α ε))
  streams : List (Option (Stream α ε))
  broadcasts : List (Option Exchange.Broadcast)
  tickets : List (Option Ticket)

inductive Step (α ε : Type) where
  | act (a : Action)
  /-- A call; one that is issued by its kind is reported as such. -/
  | callAsync (task : String) (codec : Codec α ε) (entry : Script) (byKind : Bool)
  | callStream (task : String) (codec : Codec α ε) (entry : Script) (byKind : Bool)
  | callSync (task : String) (codec : Codec α ε) (entry : SyncEntry) (byKind : Bool)
  | ready (d : Nat)
  | deferredText (d : Nat)
  | tryTake (d : Nat)
  | waitTimeout (d : Nat) (t : Timeout)
  | poll (d : Nat) (w : Waker)
  | wait (d : Nat)
  | dropDeferred (d : Nat)
  | next (st : Nat)
  | nextTimeout (st : Nat) (t : Timeout)
  | collect (st : Nat)
  | closeStream (st : Nat)
  | streamInfo (st : Nat)
  | dropStream (st : Nat)
  | openSingle
  | readTicket (c : Nat) (r : OneShot.Read)
  | openBroadcast (task : String)
  | receive (b : Nat)
  | tryReceive (b : Nat)
  | receiveWithin (b : Nat) (t : Timeout)
  | closeBroadcast (b : Nat)
  | broadcastInfo (b : Nat)
  | dropBroadcast (b : Nat)
  | reverseHandle
  | pump (t : Span)
  | pumpOnce
  | waitForDelivery (t : Span)
  | dispatcherText
  | dispatcherCounters
  | shutdownDispatcher
  | cloneDispatcher
  | dropDispatcher
  /-- Scripts on threads of their own, all of which end before the step does. -/
  | threads (scripts : List Script)
  | breakNotifier
  | saturateNotifier

/-- What a step answers. Handles that it creates come with their numbers, ports that it keeps for
scripts with theirs. -/
inductive Answer (α ε : Type) where
  | reply (r : Reply)
  | replies (rs : List (List Reply))
  | deferred (d : Nat) (issued : Deferred α ε) (ready : Bool) (diagnostic : String)
  | stream (st : Nat) (issued : Stream α ε) (diagnostic : String)
  | sync (r : CallResult α ε) (freed : UInt64) (diagnostic : String)
  | result (r : CallResult α ε)
  | results (rs : List (CallResult α ε))
  | pending
  | ended
  | timedOut
  | wouldBlock
  | text (s : String)
  | streamInfo (s : Stream α ε) (diagnostic : String)
  | single (c : Nat) (p : PortId) (kept : Nat)
  | slot (a : OneShot.Answer Value)
  | broadcast (b : Nat) (opened : Exchange.Broadcast) (kept : Nat)
  | broadcastInfo (b : Exchange.Broadcast) (closed : Bool) (diagnostic : String)
  | reverseHandle (p : PortId) (kept : Nat)
  | noDispatcher
  | unwound (p : Panic)
  /-- The scripts called each other deeper than allowed. -/
  | exhausted

namespace Session

variable {α ε : Type}

def start (x : Exchange) : Session α ε :=
  ⟨⟨x, [], []⟩, true, [], [], [], []⟩

def exchange (s : Session α ε) : Exchange := s.stage.exchange
def put (s : Session α ε) (x : Exchange) : Session α ε := { s with stage := s.stage.put x }

abbrev Turn (α ε : Type) := Answer α ε × Session α ε

def replied (r : Reply) (s : Session α ε) : Turn α ε := (.reply r, s)

def settle {β : Type} (s : Session α ε) (o : Outcome Stage β)
    (f : β → Session α ε → Turn α ε) : Turn α ε :=
  match o with
  | .returned b stage => f b { s with stage := stage }
  | .unwound p stage => (.unwound p, { s with stage := stage })
  | .exhausted => (.exhausted, s)

def withDispatcher (s : Session α ε) (f : Exchange → Turn α ε) : Turn α ε :=
  if s.dispatcher then f s.exchange else (.noDispatcher, s)

def withHandle {η : Type} (s : Session α ε) (handles : List (Option η)) (n : Nat)
    (f : η → Turn α ε) : Turn α ε :=
  match handles[n]?.join with
  | some h => f h
  | none => s.replied .noHandle

def setDeferred (s : Session α ε) (n : Nat) (d : Option (Deferred α ε)) : Session α ε :=
  { s with deferreds := s.deferreds.set n d }

def setStream (s : Session α ε) (n : Nat) (st : Option (Stream α ε)) : Session α ε :=
  { s with streams := s.streams.set n st }

def keep (s : Session α ε) (p : PortId) : Nat × Session α ε :=
  ((s.stage.keep p).1, { s with stage := (s.stage.keep p).2 })

end Session

end CallExchange
