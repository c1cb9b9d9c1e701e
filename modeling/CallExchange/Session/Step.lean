import CallExchange.Session.Basic

set_option autoImplicit false

/-!
# Steps of a session

What each step does. Steps that would block forever are answered as such and change nothing; steps
that wait for a limited time see what is there now.
-/

namespace CallExchange.Session

variable {α ε : Type}

def announce (byKind : Bool) (task : String) (s : Session α ε) : Session α ε :=
  if byKind then s.put (s.exchange.note (.dispatchedByKind task)) else s

def addDeferred (r : Except Fault (Deferred α ε)) (s : Session α ε) : Turn α ε :=
  match r with
  | .error f => s.replied (.fault f)
  | .ok d =>
    (.deferred s.deferreds.length d (d.isReady s.exchange)
        ("Deferred(" ++ d.diagnostic s.exchange ++ ")"),
      { s with deferreds := s.deferreds ++ [some d] })

def addStream (r : Except Fault (Stream α ε)) (s : Session α ε) : Turn α ε :=
  match r with
  | .error f => s.replied (.fault f)
  | .ok st =>
    (.stream s.streams.length st ("Stream(" ++ st.diagnostic s.exchange ++ ")"),
      { s with streams := s.streams ++ [some st] })

/-- The answer to a sync call, with the number of buffers freed since `before`. -/
def answerSync (before : Counters) (r : CallResult α ε) (s : Session α ε) : Turn α ε :=
  let word := match r with
    | .ok _ => "ok"
    | .error _ => "err"
  (.sync r (s.exchange.counters.buffersFreed - before.buffersFreed)
    ("Ready(" ++ Text.quoted word ++ ")"), s)

def readDeferred (n : Nat) (late : Answer α ε) (f : Deferred.Act α ε (Option (CallResult α ε)))
    (s : Session α ε) : Turn α ε :=
  s.withHandle s.deferreds n fun d =>
    match f (d, s.exchange) with
    | .returned r (d, x) =>
      ((r.map Answer.result).getD late, (s.put x).setDeferred n (some d))
    | .unwound p (d, x) => (.unwound p, (s.put x).setDeferred n (some d))
    | .exhausted => (.exhausted, s)

/-- Waits for a deferred result and gives its handle up, unless the wait would never end. -/
def waitDeferred (thread : Option String) (n : Nat) (s : Session α ε) : Turn α ε :=
  s.withHandle s.deferreds n fun d =>
    if d.isReady s.exchange then
      match d.wait thread s.exchange with
      | .returned r x => ((r.map Answer.result).getD .wouldBlock, (s.put x).setDeferred n none)
      | .unwound p x => (.unwound p, (s.put x).setDeferred n none)
      | .exhausted => (.exhausted, s)
    else (.wouldBlock, s)

def pullStream {β : Type} (n : Nat) (f : Stream.Act α ε β) (answer : β → Answer α ε)
    (s : Session α ε) : Turn α ε :=
  s.withHandle s.streams n fun st =>
    match f (st, s.exchange) with
    | .returned r (st, x) => (answer r, (s.put x).setStream n (some st))
    | .unwound p (st, x) => (.unwound p, (s.put x).setStream n (some st))
    | .exhausted => (.exhausted, s)

def answerPull (late : Answer α ε) : Stream.Pull α ε → Answer α ε
  | .item r => .result r
  | .done => .ended
  | .nothingYet => late

def answerCollected : List (CallResult α ε) × Bool → Answer α ε
  | (rs, true) => .results rs
  | (_, false) => .wouldBlock

def readTicket (n : Nat) (r : OneShot.Read) (s : Session α ε) : Turn α ε :=
  match s.tickets[n]?.join with
  | none => (.slot .noHandle, s)
  | some k =>
    let x := s.exchange
    let (answer, pending) := x.pending.read k r
    let tickets := if r.consumes (x.pending.slot k) then s.tickets.set n none else s.tickets
    (.slot answer, { (s.put { x with pending := pending }) with tickets := tickets })

def receiveBy (n : Nat) (late : Answer α ε)
    (f : Inbox → Except Panic (Option Inbox.Received × Inbox)) (s : Session α ε) : Turn α ε :=
  s.withHandle s.broadcasts n fun b =>
    match f (s.exchange.inbox b.id) with
    | .error p => (.unwound p, s)
    | .ok (r, inbox) =>
      ((r.map fun r => Answer.reply (.value r.value?)).getD late,
        s.put (s.exchange.setInbox b.id inbox))

def addSingle (r : Except Fault (PortId × Ticket)) (s : Session α ε) : Turn α ε :=
  match r with
  | .error f => s.replied (.fault f)
  | .ok (p, k) =>
    let (kept, s) := s.keep p
    (.single s.tickets.length p kept, { s with tickets := s.tickets ++ [some k] })

def addBroadcast (r : Except Fault Exchange.Broadcast) (s : Session α ε) : Turn α ε :=
  match r with
  | .error f => s.replied (.fault f)
  | .ok b =>
    let (kept, s) := s.keep b.id
    (.broadcast s.broadcasts.length b kept, { s with broadcasts := s.broadcasts ++ [some b] })

def withNotifier (f : Notifier → Bool × Notifier) (s : Session α ε) : Turn α ε :=
  let x := s.exchange
  if x.isGone then s.replied .exchangeGone
  else (s.put { x with notifier := (f x.notifier).2 }).replied (.flag (f x.notifier).1)

/-- One step. Scripts may call each other `bound` deep; `thread` is the name of the thread that
the client runs on. -/
def step (bound : Nat) (thread : Option String) (s : Session α ε) : Step α ε → Turn α ε
  | .act a => s.settle (s.stage.perform bound none a) replied
  | .callAsync task codec entry byKind =>
    s.withDispatcher fun _ =>
      let s := s.announce byKind task
      s.settle (s.stage.callAsync bound thread task codec entry) addDeferred
  | .callStream task codec entry byKind =>
    s.withDispatcher fun _ =>
      let s := s.announce byKind task
      s.settle (s.stage.callStream bound thread task codec entry) addStream
  | .callSync task codec entry byKind =>
    s.withDispatcher fun _ =>
      let s := s.announce byKind task
      s.settle (s.stage.callSync bound thread task codec entry) (answerSync s.exchange.counters)
  | .ready n => s.withHandle s.deferreds n fun d => s.replied (.flag (d.isReady s.exchange))
  | .deferredText n => s.withHandle s.deferreds n fun d => (.text (d.diagnostic s.exchange), s)
  | .tryTake n => s.readDeferred n .pending (Deferred.tryTake thread)
  | .waitTimeout n t => s.readDeferred n .pending (Deferred.waitTimeout thread t)
  | .poll n w => s.readDeferred n .pending (Deferred.poll thread w)
  | .wait n => s.waitDeferred thread n
  | .dropDeferred n =>
    s.withHandle s.deferreds n fun d =>
      ((s.put (d.drop s.exchange)).setDeferred n none).replied .nothing
  | .next n => s.pullStream n (Stream.next thread) (answerPull .wouldBlock)
  | .nextTimeout n t => s.pullStream n (Stream.nextTimeout thread t) (answerPull .timedOut)
  | .collect n => s.pullStream n (Stream.collect thread) answerCollected
  | .closeStream n =>
    s.withHandle s.streams n fun st =>
      let (st, x) := st.close s.exchange
      ((s.put x).setStream n (some st)).replied .nothing
  | .streamInfo n =>
    s.withHandle s.streams n fun st => (.streamInfo st (st.diagnostic s.exchange), s)
  | .dropStream n =>
    s.withHandle s.streams n fun st =>
      ((s.put (st.drop s.exchange)).setStream n none).replied .nothing
  | .openSingle => s.withDispatcher fun x => addSingle x.openSingle.1 (s.put x.openSingle.2)
  | .readTicket n r => s.readTicket n r
  | .openBroadcast task =>
    s.withDispatcher fun x => addBroadcast (x.openBroadcast task).1 (s.put (x.openBroadcast task).2)
  | .receive n => s.receiveBy n .wouldBlock fun b => .ok b.receive
  | .tryReceive n =>
    s.withHandle s.broadcasts n fun b =>
      let (v, inbox) := (s.exchange.inbox b.id).tryReceive
      (s.put (s.exchange.setInbox b.id inbox)).replied (.value v)
  | .receiveWithin n t => s.receiveBy n .timedOut (Inbox.receiveWithin t)
  | .closeBroadcast n =>
    s.withHandle s.broadcasts n fun b =>
      (s.put (b.close s.exchange).2).replied (.flag (b.close s.exchange).1)
  | .broadcastInfo n =>
    s.withHandle s.broadcasts n fun b =>
      (.broadcastInfo b (s.exchange.inbox b.id).closed (b.diagnostic s.exchange), s)
  | .dropBroadcast n =>
    s.withHandle s.broadcasts n fun b =>
      { s.put (b.close s.exchange).2 with broadcasts := s.broadcasts.set n none }.replied .nothing
  | .reverseHandle =>
    s.withDispatcher fun _ =>
      let (kept, s) := s.keep Exchange.reversePort
      (.reverseHandle Exchange.reversePort kept, s)
  | .pump _ | .pumpOnce =>
    s.withDispatcher fun _ =>
      s.settle (s.stage.pump bound) fun r s => s.replied (Stage.replyToDrain r)
  | .waitForDelivery _ =>
    s.withDispatcher fun x =>
      match x.waitForDelivery with
      | .ok (b, x) => (s.put x).replied (.flag b)
      | .error f => s.replied (.fault f)
  | .dispatcherText =>
    s.withDispatcher fun x => (.text ("Dispatcher \x7b ctx: " ++ x.diagnostic ++ " \x7d"), s)
  | .dispatcherCounters => s.withDispatcher fun x => s.replied (.counters x.counters)
  | .shutdownDispatcher =>
    s.withDispatcher fun x => (s.put (x.note .shutdownRequested).shutdown).replied .nothing
  | .cloneDispatcher => s.withDispatcher fun x => (s.put x.hold.release).replied .nothing
  | .dropDispatcher =>
    s.withDispatcher fun x => { s.put x.release with dispatcher := false }.replied .nothing
  | .threads scripts => s.settle (s.stage.performThreads bound scripts) fun rs s => (.replies rs, s)
  | .breakNotifier => s.withNotifier Notifier.breakDescriptor
  | .saturateNotifier => s.withNotifier Notifier.saturate

end CallExchange.Session
