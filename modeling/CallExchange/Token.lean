set_option autoImplicit false

/-!
# Callback tokens

The number under which a managed function is known on the other side of the boundary.
-/

namespace CallExchange

structure Token where
  raw : UInt64
deriving DecidableEq

namespace Token

def order (s t : Token) : Ordering := compare s.raw.toNat t.raw.toNat

def number (t : Token) : String := toString t.raw.toNat

def label (t : Token) : String := "fn:" ++ t.number

def diagnostic (t : Token) : String := "CallbackRef(" ++ t.number ++ ")"

end Token

end CallExchange
