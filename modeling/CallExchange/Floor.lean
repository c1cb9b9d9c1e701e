import CallExchange.Session.Step

set_option autoImplicit false

/-!
# The floor

Entries of calls and callbacks are code of their own: while one of them runs, it may do to the
exchange whatever can be done to it, issuing further calls included, and so may every other thread.
On the floor all of this is one sequence of moves, none of which runs a script. A call is a move
that begins it and a move that finishes it, with any others in between.
-/

namespace CallExchange

inductive Running (α ε : Type) where
  | async (task : String) (codec : Codec α ε) (p : PortId) (k : Ticket)
  | stream (task : String) (codec : Codec α ε) (port : Exchange.Broadcast)
  | sync (task : String) (codec : Codec α ε)
  | callback

structure Floor (α ε : Type) where
  session : Session α ε
  /-- What is over stays in the list as `none`. -/
  running : List (Option (Running α ε))

/-- Whether an action is over at once and posts through no handle of its own. -/
def Action.isElementary : Action → Bool
  | .own _ | .native _ _ | .invoke _ | .drain => false
  | _ => true

/-- Whether a step runs no script and uses a handle only once. -/
def Step.isElementary {α ε : Type} : Step α ε → Bool
  | .act a => a.isElementary
  | .callAsync _ _ _ _ | .callStream _ _ _ _ | .callSync _ _ _ _ => false
  | .collect _ | .pump _ | .pumpOnce | .threads _ => false
  | _ => true

inductive Move (α ε : Type) where
  | step (st : Step α ε) (elementary : st.isElementary = true)
  /-- A post through a handle on `p` on the other side. -/
  | deliver (p : PortId) (v : Value)
  | keep (p : PortId)
  /-- Something is seen of a script. -/
  | see (e : Event)
  /-- A call is reported as issued by its kind. -/
  | announce (task : String)
  | beginAsync (task : String) (codec : Codec α ε)
  | beginStream (task : String) (codec : Codec α ε)
  | beginSync (task : String) (codec : Codec α ε)
  | beginCallback (message : Value)
  /-- Running code is over. Of what it returns only the buffer of a sync call is looked at. -/
  | finish (i : Nat) (ended : Except Panic Buffer)

namespace Floor

variable {α ε : Type}

def start (x : Exchange) : Floor α ε := ⟨Session.start x, []⟩

def exchange (f : Floor α ε) : Exchange := f.session.exchange
def put (f : Floor α ε) (x : Exchange) : Floor α ε := { f with session := f.session.put x }

def launch (f : Floor α ε) (r : Running α ε) : Floor α ε :=
  { f with running := f.running ++ [some r] }

def isBusy (f : Floor α ε) : Bool := f.running.any Option.isSome

abbrev Turn (α ε : Type) := Answer α ε × Floor α ε

def turn (f : Floor α ε) (t : Session.Turn α ε) : Turn α ε := (t.1, { f with session := t.2 })

def conclude (thread : Option String) (r : Running α ε) (ended : Except Panic Buffer)
    (s : Session α ε) : Session.Turn α ε :=
  match r with
  | .async task codec p k =>
    let (d, x) := Deferred.ofEntry ⟨task, thread⟩ codec p k (ended.map fun _ => ()) s.exchange
    Session.addDeferred (.ok d) (s.put x)
  | .stream task codec port =>
    let (st, x) := Stream.ofEntry ⟨task, thread⟩ codec port (ended.map fun _ => ()) s.exchange
    Session.addStream (.ok st) (s.put x)
  | .sync task codec =>
    let (result, x) := Reader.ofEntry ⟨task, thread⟩ codec ended s.exchange
    Session.answerSync s.exchange.counters result (s.put x)
  | .callback =>
    match ended with
    | .ok _ => (s.put (s.exchange.record .callbackInvoked)).replied .done
    | .error p => (.unwound p, s)

def finish (thread : Option String) (i : Nat) (ended : Except Panic Buffer) (f : Floor α ε) :
    Turn α ε :=
  match f.running[i]?.join with
  | none => f.turn (f.session.replied .noHandle)
  | some r =>
    { f with running := f.running.set i none }.turn (conclude thread r ended f.session)

def begin {β : Type} (f : Floor α ε) (r : Except Fault β × Exchange) (port : β → PortId)
    (running : β → Running α ε) : Turn α ε :=
  if f.session.dispatcher then
    match r with
    | (.error e, x) => (.reply (.fault e), f.put x)
    | (.ok b, x) => (.reply (Stage.portInfo (port b)), (f.put x).launch (running b))
  else (.noDispatcher, f)

def beginCallback (message : Value) (f : Floor α ε) : Turn α ε :=
  let s := f.session
  if s.exchange.isGone then f.turn (Session.replied .exchangeGone s)
  else
    match s.exchange.callbacks.read message with
    | .error e => f.turn (s.settle (s.stage.refuse e) fun r s => s.replied (Stage.replyToCall r))
    | .ok call =>
      let stage := s.stage.see (.call call.callable.body.label call.args)
      (.reply .nothing, { f with session := { s with stage := stage } }.launch .callback)

/-- The dispatcher handle by which running code was called cannot be given up. -/
def step (thread : Option String) (st : Step α ε) (f : Floor α ε) : Turn α ε :=
  match st with
  | .dropDispatcher =>
    if f.isBusy then (.wouldBlock, f) else f.turn (f.session.step 0 thread .dropDispatcher)
  | st => f.turn (f.session.step 0 thread st)

/-- One move. `thread` is the name of the thread that the client runs on. -/
def apply (thread : Option String) (f : Floor α ε) : Move α ε → Turn α ε
  | .step st _ => f.step thread st
  | .deliver p v =>
    f.turn (f.session.settle (f.session.stage.on (f.exchange.deliver p v) .delivery)
      Session.replied)
  | .keep p => f.turn (Session.replied (.kept (f.session.keep p).1) (f.session.keep p).2)
  | .see e => (.reply .nothing, { f with session := { f.session with stage := f.session.stage.see e } })
  | .announce task => (.reply .nothing, { f with session := f.session.announce true task })
  | .beginAsync task codec =>
    f.begin (f.exchange.beginAsync task) Prod.fst fun r => .async task codec r.1 r.2
  | .beginStream task codec =>
    f.begin (f.exchange.beginStream task) Exchange.Broadcast.id fun port => .stream task codec port
  | .beginSync task codec =>
    if f.session.dispatcher then
      (.reply .nothing, (f.put f.exchange.beginSync).launch (.sync task codec))
    else (.noDispatcher, f)
  | .beginCallback message => f.beginCallback message
  | .finish i ended => f.finish thread i ended

def run (thread : Option String) (ms : List (Move α ε)) (f : Floor α ε) : Floor α ε :=
  ms.foldl (fun f m => (f.apply thread m).2) f

def history (thread : Option String) : List (Move α ε) → Floor α ε → List (Move α ε × Answer α ε)
  | [], _ => []
  | m :: ms, f => (m, (f.apply thread m).1) :: history thread ms (f.apply thread m).2

end Floor

namespace Move

variable {α ε : Type}

/-- Whether a move may take a new port number. -/
def opensPort : Move α ε → Bool
  | .beginAsync _ _ | .beginStream _ _ => true
  | .step .openSingle _ | .step (.openBroadcast _) _ => true
  | _ => false

def post? : Move α ε → Option (PortId × Value)
  | .deliver p v => some (p, v)
  | .step (.act (.post p v)) _ => some (p, v)
  | .step (.act (.reverse v)) _ => some (Exchange.reversePort, v)
  | _ => none

def shutsDown : Move α ε × Answer α ε → Bool
  | (.step (.act .shutdown) _, .reply .nothing) => true
  | (.step .shutdownDispatcher _, .reply .nothing) => true
  | _ => false

def closes (p : PortId) : Move α ε × Answer α ε → Bool
  | (.step (.act (.closePort q)) _, .reply (.flag true)) => q = p
  | _ => false

/-- Whether a move tore down what was open on `p`. -/
def tearsDown (p : PortId) (h : Move α ε × Answer α ε) : Bool := shutsDown h || closes p h

end Move

end CallExchange
