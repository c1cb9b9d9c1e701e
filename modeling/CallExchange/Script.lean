import CallExchange.Callbacks
import CallExchange.Unwinding

set_option autoImplicit false

/-!
# Scripts

What the code on either side of the boundary does while it runs, as far as the exchange can tell:
a list of actions. The entry of a call and the body of a callback are scripts.
-/

namespace CallExchange

inductive Action where
  /-- Posts to the port that the call was given. -/
  | own (v : Value)
  | ownClosed
  /-- Keeps the port that the call was given beyond the call. -/
  | keep
  /-- Posts to a port that was kept. -/
  | native (n : Nat) (v : Value)
  | nativeClosed (n : Nat)
  | nativeInfo (n : Nat)
  | panic (p : Panic)
  | post (p : PortId) (v : Value)
  | shutdown
  | closePort (p : PortId)
  | isOpen (p : PortId)
  | portName (p : PortId)
  | register (shape : Shape) (label : String) (body : List Action)
  | unregister (t : Token)
  | invoke (message : Value)
  | drain
  | takeReverse
  | reverse (message : Value)
  | notify
  | callbackCount
  | counters

abbrev Script := List Action

structure Routine where
  label : String
  body : Script

end CallExchange
