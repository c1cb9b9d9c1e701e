import CallExchange.Unwinding

set_option autoImplicit false

/-!
# Failures of calls

How a call fails for the one who made it. An application error is handed on as it is; everything
else is made by the exchange.
-/

namespace CallExchange

/-- An abort on the other side, as it was observed on this one. -/
structure Abort where
  task : String
  message : String
  /-- The name of the thread that observed the abort. -/
  thread : String
deriving DecidableEq

namespace Abort

/-- A thread without a name is recorded as such. -/
def observed (thread : Option String) (task message : String) : Abort :=
  ⟨task, message, thread.getD "<unnamed>"⟩

def ofPanic (thread : Option String) (task : String) (p : Panic) : Abort :=
  observed thread task p.message

def text (a : Abort) : String :=
  "native abort in '" ++ a.task ++ "' (thread " ++ a.thread ++ "): " ++ a.message

end Abort

inductive Failure (ε : Type) where
  | application (e : ε)
  | fatal (a : Abort)
  /-- A delivery that cannot be read. -/
  | protocol (why : String)
  | disconnected

namespace Failure

variable {ε : Type}

def isApplication : Failure ε → Bool
  | application _ => true
  | _ => false

def isFatal : Failure ε → Bool
  | fatal _ => true
  | _ => false

def application? : Failure ε → Option ε
  | application e => some e
  | _ => none

def message (shown : ε → String) : Failure ε → String
  | application e => shown e
  | fatal a => a.text
  | protocol why => "protocol violation: " ++ why
  | disconnected => "dispatcher context disconnected"

end Failure

abbrev CallResult (α ε : Type) := Except (Failure ε) α

end CallExchange
