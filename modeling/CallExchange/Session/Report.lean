import CallExchange.Session.Step

set_option autoImplicit false

/-!
# Reports on steps

A step may run while another thread performs a script. A step that has to wait finds what the
script did; any other step is over before the script starts. What is reported on a step is its
answer, what scripts were seen to do, what was logged, who was woken, and the state afterwards.
-/

namespace CallExchange.Session

variable {α ε : Type}

/-- Whether a step still waits when other threads have had their turn. -/
def mustWait (s : Session α ε) : Step α ε → Bool
  | .wait n => deferredIdle n
  | .waitTimeout n t => deferredIdle n && t.isPatient
  | .next n => streamIdle n
  | .nextTimeout n t => streamIdle n && t.isPatient
  | .collect n =>
    ((s.streams[n]?.join).map fun st =>
      match Stream.collect none (st, s.exchange) with
      | .returned (_, finished) _ => !finished
      | _ => false).getD false
  | .readTicket n r =>
    ((s.tickets[n]?.join).map fun k => r.mustWait (s.exchange.pending.slot k)).getD false
  | .receive n => inboxIdle n
  | .receiveWithin n t => inboxIdle n && t.isPatient
  | .pump t | .waitForDelivery t => s.dispatcher && s.exchange.notifier.isIdle && t.patient
  | .pumpOnce =>
    s.dispatcher && s.exchange.notifier.isIdle && s.exchange.settings.pumpInterval.patient
  | _ => false
where
  deferredIdle (n : Nat) : Bool :=
    ((s.deferreds[n]?.join).map fun d => !d.isReady s.exchange).getD false
  streamIdle (n : Nat) : Bool :=
    ((s.streams[n]?.join).map fun st => st.isIdle s.exchange).getD false
  inboxIdle (n : Nat) : Bool :=
    ((s.broadcasts[n]?.join).map fun b => (s.exchange.inbox b.id).isIdle).getD false

def performApart (bound : Nat) (script : Script) (s : Session α ε) : List Reply × Session α ε :=
  match s.stage.performApart bound script with
  | .returned rs stage => (rs, { s with stage := stage })
  | .unwound _ stage => ([], { s with stage := stage })
  | .exhausted => ([], s)

/-- A step while another thread performs a script. -/
def stepDuring (bound : Nat) (thread : Option String) (step : Step α ε) (script : Script)
    (s : Session α ε) : Answer α ε × List Reply × Session α ε :=
  if s.mustWait step then
    let (rs, s) := s.performApart bound script
    let (a, s) := s.step bound thread step
    (a, rs, s)
  else
    let (a, s) := s.step bound thread step
    let (rs, s) := s.performApart bound script
    (a, rs, s)

structure Status where
  pendingCalls : Nat
  openPorts : Nat
  closed : Bool

structure Report (α ε : Type) where
  answer : Answer α ε
  /-- Nothing once the exchange is gone. -/
  status : Option Status
  trace : List Event
  journal : List Notice
  /-- Who was woken, in order of their numbers. -/
  woken : List Waker
  /-- What the script on the other thread answered, if there was one. -/
  apart : Option (List Reply)

def status (s : Session α ε) : Option Status :=
  let x := s.exchange
  if x.isGone then none else some ⟨x.pendingCalls, x.openPorts, x.closed⟩

def sortWakers (ws : List Waker) : List Waker := ws.mergeSort fun v w => v.id ≤ w.id

def report (bound : Nat) (thread : Option String) (step : Step α ε) (apart : Option Script)
    (before : Session α ε) : Report α ε × Session α ε :=
  let (answer, replies, after) := match apart with
    | none =>
      let (a, s) := before.step bound thread step
      (a, none, s)
    | some script =>
      let (a, rs, s) := before.stepDuring bound thread step script
      (a, some rs, s)
  ({ answer := answer
     status := after.status
     trace := after.stage.trace.drop before.stage.trace.length
     journal := after.exchange.journal.drop before.exchange.journal.length
     woken := sortWakers (after.exchange.woken.drop before.exchange.woken.length)
     apart := replies }, after)

def finalCounters (s : Session α ε) : Option Counters :=
  if s.exchange.isGone then none else some s.exchange.counters

/-- Far more calls within calls than any stack has room for. -/
def ampleBound : Nat := 1000000000

end CallExchange.Session
