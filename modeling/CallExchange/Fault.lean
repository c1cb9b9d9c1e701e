import CallExchange.PortId
import CallExchange.Text.Quoted
import CallExchange.Token

set_option autoImplicit false

/-!
# Faults of the exchange

What the exchange itself refuses or fails to do. Errors that a called function reports on purpose
are no faults and are never turned into one.
-/

namespace CallExchange

inductive Fault where
  /-- As many calls are pending as may be. -/
  | registryFull (limit : UInt64)
  | closed
  /-- A reverse call names a callback that is not registered. -/
  | unresolvedCallback (t : Token)
  /-- A reverse call does not start with a callback. -/
  | malformedCallback (why : String)
  | arityMismatch (t : Token) (expected got : Nat)
  | duplicatePort (p : PortId)
  | invalidSettings (why : String)
  /-- A call of the operating system failed with this number. -/
  | os (errno : Int32)
deriving DecidableEq

namespace Fault

def message : Fault → String
  | registryFull limit =>
    "completion registry full (" ++ toString limit.toNat ++ " pending calls)"
  | closed => "dispatcher context closed"
  | unresolvedCallback t => "unresolved callback " ++ t.label
  | malformedCallback why => "malformed reverse call: " ++ why
  | arityMismatch t expected got =>
    "callback " ++ t.label ++ " expects " ++ toString expected ++ " argument(s), got "
      ++ toString got
  | duplicatePort p => p.label ++ " already registered"
  | invalidSettings why => "invalid config: " ++ why
  | os errno => "OS error: errno " ++ toString errno.toInt

def kind : Fault → String
  | registryFull _ => "RegistryFull"
  | closed => "ContextClosed"
  | unresolvedCallback _ => "UnresolvedCallback"
  | malformedCallback _ => "MalformedCallback"
  | arityMismatch _ _ _ => "ArityMismatch"
  | duplicatePort _ => "DuplicatePort"
  | invalidSettings _ => "InvalidConfig"
  | os _ => "Os"

def details : Fault → String
  | registryFull limit => " \x7b limit: " ++ toString limit.toNat ++ " \x7d"
  | closed => ""
  | unresolvedCallback t => "(" ++ t.diagnostic ++ ")"
  | malformedCallback why => "(" ++ Text.quoted why ++ ")"
  | arityMismatch t expected got =>
    " \x7b callback: " ++ t.diagnostic ++ ", expected: " ++ toString expected ++ ", got: "
      ++ toString got ++ " \x7d"
  | duplicatePort p => "(" ++ p.diagnostic ++ ")"
  | invalidSettings why => "(" ++ Text.quoted why ++ ")"
  | os errno => "(" ++ toString errno.toInt ++ ")"

def diagnostic (f : Fault) : String := f.kind ++ f.details

end Fault

end CallExchange
