import CallExchange.Codec

set_option autoImplicit false

/-!
# The tagged format

A delivered value is a list of a tag and a payload; a returned buffer is a tag byte and the bytes
of the payload. What the payloads of successes and errors mean is given to the codec; the payload
of an abort is its message.
-/

namespace CallExchange

structure BufferReaders (α ε : Type) where
  success : List UInt8 → Option α
  error : List UInt8 → Option ε

structure TaggedCodec (α ε : Type) where
  success : Value → Option α
  error : Value → Option ε
  buffers : Option (BufferReaders α ε)

namespace TaggedCodec

variable {α ε : Type}

/-- The number of the tag and the payload. A number that is no byte is no tag. -/
def split (v : Value) : Except String (Nat × Value) :=
  match v with
  | .list [.int n, payload] =>
    if 0 ≤ n.toInt ∧ n.toInt ≤ 255 then .ok (n.toInt.toNat, payload)
    else .error ("bad tag " ++ (Value.int n).diagnostic)
  | .list [t, _] => .error ("bad tag " ++ t.diagnostic)
  | .list items =>
    .error ("expected [tag, payload], got " ++ toString items.length ++ " element(s)")
  | v => .error ("expected [tag, payload], got " ++ v.kind)

def abortMessage : Value → String
  | .text s => s
  | v => v.diagnostic

def decode (c : TaggedCodec α ε) (v : Value) : Decoded α ε :=
  match split v with
  | .error why => .malformed why
  | .ok (code, payload) =>
    match Tag.ofCode? code with
    | some .success =>
      match c.success payload with
      | some a => .success a
      | none => .malformed ("bad success payload (" ++ payload.kind ++ ")")
    | some .error =>
      match c.error payload with
      | some e => .application e
      | none => .malformed ("bad error payload (" ++ payload.kind ++ ")")
    | some .abort => .abort (abortMessage payload)
    | none => .malformed ("unknown tag " ++ toString code)

def decodeBuffer (c : TaggedCodec α ε) (b : Buffer) : Decoded α ε :=
  match b.bytes with
  | [] => .malformed "empty sync return"
  | t :: payload =>
    match c.buffers with
    | none => .malformed "codec has no sync decoders"
    | some readers =>
      match Tag.ofCode? t.toNat with
      | some .success =>
        match readers.success payload with
        | some a => .success a
        | none => .malformed "bad sync success payload"
      | some .error =>
        match readers.error payload with
        | some e => .application e
        | none => .malformed "bad sync error payload"
      | some .abort => .abort (Text.Utf8.decodeLenient payload)
      | none => .malformed ("unknown sync tag " ++ toString t.toNat)

def toCodec (c : TaggedCodec α ε) : Codec α ε where
  decode v := .ok (c.decode v)
  isEnd := Value.isEndOfStream
  decodeBuffer b := .ok (c.decodeBuffer b)

end TaggedCodec

/-- The two's-complement word of exactly eight bytes, the lowest first. -/
def int64OfBytes? (bs : List UInt8) : Option Int64 :=
  if bs.length = 8 then some (Int64.ofNat (bs.foldr (fun b n => 256 * n + b.toNat) 0)) else none

def bytesOfInt64 (n : Int64) : List UInt8 :=
  (List.range 8).map fun i => UInt8.ofNat (n.toUInt64.toNat / Nat.pow 256 i)

end CallExchange
