import CallExchange.Call.Deferred
import CallExchange.Call.Stream
import CallExchange.Stage

set_option autoImplicit false

/-!
# Issuing calls

A call runs its entry on the spot. An async call gives the entry a port for one delivery, a stream
call a broadcast port, and a sync call takes a buffer from it. An entry that aborts fails its call
and nothing else: the port is closed again and the abort is what the maker of the call reads.
-/

namespace CallExchange

inductive CallKind where
  | normal
  | sync
  | stream
deriving DecidableEq

namespace CallKind

def taskName : CallKind → String
  | normal => "NormalTask"
  | sync => "SyncTask"
  | stream => "StreamTask"

def diagnostic (k : CallKind) (task : String) : String :=
  k.taskName ++ " \x7b debug_name: " ++ Text.quoted task ++ ", .. \x7d"

end CallKind

structure SyncEntry where
  script : Script
  buffer : Buffer

namespace Exchange

def beginAsync (x : Exchange) (task : String) : Except Fault (PortId × Ticket) × Exchange :=
  match x.openSingle with
  | (.error f, x) => (.error f, x)
  | (.ok (p, k), x) => (.ok (p, k), (x.record .asyncCall).note (.asyncCall task p))

def beginStream (x : Exchange) (task : String) : Except Fault Broadcast × Exchange :=
  match x.openBroadcast task with
  | (.error f, x) => (.error f, x)
  | (.ok port, x) =>
    (.ok port, ((x.record .streamCall).note (.streamCall task port.id port.name)).hold)

def beginSync (x : Exchange) : Exchange := x.record .syncCall

end Exchange

section

variable {α ε : Type}

def Deferred.ofEntry (r : Reader) (codec : Codec α ε) (p : PortId) (k : Ticket)
    (ended : Except Panic Unit) (x : Exchange) : Deferred α ε × Exchange :=
  match ended with
  | .ok () => (⟨.waiting k, codec, r.task, p⟩, x.hold)
  | .error panic =>
    let (_, x) := x.closePort p
    let (f, x) := r.fatal panic.message x
    (⟨.failed (some f), codec, r.task, p⟩, x)

/-- The stream of a stream call whose entry is over. An abort of the entry bears the name of the
port, while every other abort bears that of the task. -/
def Stream.ofEntry (r : Reader) (codec : Codec α ε) (port : Exchange.Broadcast)
    (ended : Except Panic Unit) (x : Exchange) : Stream α ε × Exchange :=
  let stream : Stream α ε := ⟨port, codec, r.task, none, false⟩
  match ended with
  | .ok () => (stream, x)
  | .error panic =>
    let (f, x) := Reader.fatal ⟨port.name, r.thread⟩ panic.message x
    stream.fail f x

/-- Decodes a returned buffer and frees it afterwards, whatever comes of the decoding. -/
def Reader.readBuffer (r : Reader) (codec : Codec α ε) (b : Buffer) (x : Exchange) :
    CallResult α ε × Exchange :=
  let decoded := codec.decodeBuffer b
  let x := (x.use (.decoded b)).free b
  match decoded with
  | .ok d => r.lift d x
  | .error panic => let (f, x) := r.fatal panic.message x; (.error f, x)

def Reader.ofEntry (r : Reader) (codec : Codec α ε) (ended : Except Panic Buffer)
    (x : Exchange) : CallResult α ε × Exchange :=
  match ended with
  | .ok b => r.readBuffer codec b x
  | .error panic => let (f, x) := r.fatal panic.message x; (.error f, x)

end

namespace Stage

variable {α ε : Type}

def callAsync (bound : Nat) (thread : Option String) (task : String) (codec : Codec α ε)
    (entry : Script) : Act (Except Fault (Deferred α ε)) := fun s =>
  match s.exchange.beginAsync task with
  | (.error f, x) => .returned (.error f) (s.put x)
  | (.ok (p, k), x) =>
    (performAll bound (some p) entry (s.put x)).caught.bind fun ended s =>
      let (d, x) := Deferred.ofEntry ⟨task, thread⟩ codec p k ended s.exchange
      .returned (.ok d) (s.put x)

def callSync (bound : Nat) (thread : Option String) (task : String) (codec : Codec α ε)
    (entry : SyncEntry) : Act (CallResult α ε) := fun s =>
  (performAll bound none entry.script (s.put s.exchange.beginSync)).caught.bind fun ended s =>
    let ended := ended.map fun () => entry.buffer
    let (result, x) := Reader.ofEntry ⟨task, thread⟩ codec ended s.exchange
    .returned result (s.put x)

def callStream (bound : Nat) (thread : Option String) (task : String) (codec : Codec α ε)
    (entry : Script) : Act (Except Fault (Stream α ε)) := fun s =>
  match s.exchange.beginStream task with
  | (.error f, x) => .returned (.error f) (s.put x)
  | (.ok port, x) =>
    (performAll bound (some port.id) entry (s.put x)).caught.bind fun ended s =>
      let (stream, x) := Stream.ofEntry ⟨task, thread⟩ codec port ended s.exchange
      .returned (.ok stream) (s.put x)

end Stage

end CallExchange
