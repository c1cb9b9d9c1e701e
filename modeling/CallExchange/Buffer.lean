import CallExchange.Text.Utf8
import CallExchange.Value

set_option autoImplicit false

/-!
# Returned buffers

A call that answers on the spot hands back plain bytes: a tag and the bytes of the payload.
-/

namespace CallExchange

structure Buffer where
  bytes : List UInt8
deriving DecidableEq

namespace Buffer

def length (b : Buffer) : Nat := b.bytes.length
def isEmpty (b : Buffer) : Bool := b.bytes.isEmpty

def tagged (t : Tag) (payload : List UInt8) : Buffer := ⟨UInt8.ofNat t.code :: payload⟩

def success (payload : List UInt8) : Buffer := tagged .success payload
def error (payload : List UInt8) : Buffer := tagged .error payload
def abort (message : String) : Buffer := tagged .abort (Text.Utf8.encode message)

inductive Use where
  | decoded (b : Buffer)
  | freed (b : Buffer)
deriving DecidableEq

end Buffer

end CallExchange
