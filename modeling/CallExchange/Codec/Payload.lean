import CallExchange.Codec.Tagged

set_option autoImplicit false

/-!
# Payloads and their codecs

Ready-made readers for payloads, and codecs put together from them: which payloads they read, how
they recognise the end of a stream, and whether they trip over texts instead of reading them.
-/

namespace CallExchange

inductive Payload where
  | int (n : Int64)
  | text (s : String)
  | value (v : Value)

namespace Payload

def message : Payload → String
  | int n => toString n.toInt
  | text s => s
  | value v => v.diagnostic

end Payload

inductive PayloadKind where
  | int
  | text
  | value
deriving DecidableEq

namespace PayloadKind

def read : PayloadKind → Value → Option Payload
  | int, v => v.int?.map .int
  | text, v => v.text?.map .text
  | value, v => some (.value v)

def readBytes : PayloadKind → List UInt8 → Option Payload
  | int, bs => (int64OfBytes? bs).map .int
  | text, bs => (Text.Utf8.decode? bs).map .text
  | value, bs => some (.value (.bytes bs))

end PayloadKind

inductive StreamEnd where
  | signal
  | null
  | never
deriving DecidableEq

def StreamEnd.recognises : StreamEnd → Value → Bool
  | signal, v => v.isEndOfStream
  | null, .null => true
  | _, _ => false

structure CodecPlan where
  success : PayloadKind
  error : PayloadKind
  readsBuffers : Bool
  streamEnd : StreamEnd
  /-- Abort on a bare text and on a buffer that starts with 0xFF. -/
  trips : Bool

namespace CodecPlan

def tagged (p : CodecPlan) : TaggedCodec Payload Payload where
  success := p.success.read
  error := p.error.read
  buffers := if p.readsBuffers then some ⟨p.success.readBytes, p.error.readBytes⟩ else none

def tripOnValue : Value → Option Panic
  | .text s => some (.text ("bomb " ++ s))
  | _ => none

def tripOnBuffer (b : Buffer) : Option Panic :=
  match b.bytes with
  | 0xFF :: _ => some (.text ("bomb of " ++ toString b.length ++ " byte(s)"))
  | _ => none

def toCodec (p : CodecPlan) : Codec Payload Payload where
  decode v :=
    match if p.trips then tripOnValue v else none with
    | some a => .error a
    | none => .ok (p.tagged.decode v)
  isEnd := p.streamEnd.recognises
  decodeBuffer b :=
    match if p.trips then tripOnBuffer b else none with
    | some a => .error a
    | none => .ok (p.tagged.decodeBuffer b)

end CodecPlan

end CallExchange
