import CallExchange.Buffer
import CallExchange.Unwinding

set_option autoImplicit false

/-!
# Codecs

A codec reads what one function delivers: values posted to a port, elements of a stream, and
buffers returned on the spot. Reading may abort; a codec that keeps its contract never does.
-/

namespace CallExchange

inductive Decoded (α ε : Type) where
  | success (a : α)
  /-- An error that the function reports on purpose. -/
  | application (e : ε)
  /-- The other side aborted and left its message. -/
  | abort (message : String)
  /-- Not of the shape that the codec reads. -/
  | malformed (why : String)

structure Codec (α ε : Type) where
  decode : Value → Except Panic (Decoded α ε)
  /-- Whether a value is the end of a stream and not an element. -/
  isEnd : Value → Bool
  decodeBuffer : Buffer → Except Panic (Decoded α ε)

end CallExchange
