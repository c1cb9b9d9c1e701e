import CallExchange.Failure
import CallExchange.Fault
import CallExchange.Text.Keyword

set_option autoImplicit false

/-!
# The log

Everything the library reports is a `Notice` with a level of its own. Notices are recorded
whatever the level of the log; the level only selects those that are written.
-/

namespace CallExchange

inductive Level where
  | off
  | error
  | warn
  | info
  | debug
  | trace
deriving DecidableEq

namespace Level

def code : Level → Nat
  | off => 0
  | error => 1
  | warn => 2
  | info => 3
  | debug => 4
  | trace => 5

/-- The level of a code; codes above the last level stand for the last level. -/
def ofCode : Nat → Level
  | 0 => off
  | 1 => error
  | 2 => warn
  | 3 => info
  | 4 => debug
  | _ => trace

def all : List Level := [off, error, warn, info, debug, trace]

def order (l m : Level) : Ordering := compare l.code m.code

def name : Level → String
  | off => "Off"
  | error => "Error"
  | warn => "Warn"
  | info => "Info"
  | debug => "Debug"
  | trace => "Trace"

def tag : Level → String
  | off => ""
  | error => "error"
  | warn => "warn"
  | info => "info"
  | debug => "debug"
  | trace => "trace"

def parse? (s : String) : Option Level :=
  match Text.keyword s with
  | "off" | "0" => some off
  | "error" | "1" => some error
  | "warn" | "2" => some warn
  | "info" | "3" => some info
  | "debug" | "4" => some debug
  | "trace" | "5" => some trace
  | _ => none

/-- Whether a log of level `log` writes what is reported at level `l`. Nothing is reported at
level `off`. -/
def enabledIn (l log : Level) : Bool := l != off && l.code ≤ log.code

end Level

inductive DropReason where
  | exchangeClosed
  | noLivePort
deriving DecidableEq

def DropReason.text : DropReason → String
  | exchangeClosed => "context closed"
  | noLivePort => "no live port"

inductive Notice where
  | unknownNotifier (given : String)
  | exchangeUp (notifier : String) (limit : UInt64) (reverse : PortId)
  | exchangeDown (abandoned closed : Nat)
  | shutdownRequested
  | broadcastOpened (name : String) (p : PortId)
  | broadcastClosed (name : String) (p : PortId)
  | valuesDiscarded (name : String) (count : Nat)
  | neverIssued (p : PortId)
  | dropped (p : PortId) (why : DropReason) (loud : Bool)
  | droppedAfterTeardown (p : PortId)
  | notifierFailed (f : Fault)
  | asyncCall (task : String) (p : PortId)
  | streamCall (task : String) (p : PortId) (name : String)
  | dispatchedByKind (task : String)
  | aborted (a : Abort)
  | malformedDelivery (task why : String)
  | retiredUnread (task : String) (p : PortId)
  | endOfStream (name : String)
  | closedByConsumer (name : String)
  | reverseCallFailed (f : Fault)
deriving DecidableEq

namespace Notice

def level : Notice → Level
  | aborted _ | malformedDelivery _ _ | reverseCallFailed _ => .error
  | unknownNotifier _ | neverIssued _ | notifierFailed _ | dropped _ _ true => .warn
  | exchangeUp _ _ _ | exchangeDown _ _ | shutdownRequested => .debug
  | _ => .trace

def message : Notice → String
  | unknownNotifier given =>
    "PORTCALL_NOTIFIER=" ++ Text.quoted given ++ " not recognized, using default"
  | exchangeUp notifier limit reverse =>
    "context up: notifier=" ++ notifier ++ " max_pending=" ++ toString limit.toNat
      ++ " reverse=" ++ reverse.label
  | exchangeDown abandoned closed =>
    "context down: " ++ toString abandoned ++ " pending calls abandoned, " ++ toString closed
      ++ " ports closed"
  | shutdownRequested => "dispatcher shutdown requested"
  | broadcastOpened name p => "opened broadcast " ++ name ++ " as " ++ p.label
  | broadcastClosed name p => "closed broadcast " ++ name ++ " (" ++ p.label ++ ")"
  | valuesDiscarded name count => name ++ ": " ++ toString count ++ " undelivered values discarded"
  | neverIssued p => "delivery to " ++ p.label ++ " dropped: never issued"
  | dropped p why _ => "delivery to " ++ p.label ++ " dropped: " ++ why.text
  | droppedAfterTeardown p => "delivery to " ++ p.label ++ " dropped: context gone"
  | notifierFailed f => "notifier failed: " ++ f.message
  | asyncCall task p => task ++ ": async call on " ++ p.label
  | streamCall task p name => task ++ ": stream call on " ++ p.label ++ " (" ++ name ++ ")"
  | dispatchedByKind task => task ++ ": dispatching by kind"
  | aborted a => a.text
  | malformedDelivery task why => task ++ ": malformed delivery: " ++ why
  | retiredUnread task p => task ++ ": dropped before delivery, " ++ p.label ++ " retired"
  | endOfStream name => name ++ ": end of stream"
  | closedByConsumer name => name ++ ": closed by consumer"
  | reverseCallFailed f => "reverse call failed: " ++ f.message

end Notice

namespace Log

def linesOf : List Char → List (List Char)
  | [] => []
  | '\n' :: cs => [] :: linesOf cs
  | c :: cs =>
    match linesOf cs with
    | [] => [[c]]
    | l :: ls => (c :: l) :: ls

def written (log : Level) (messages : List (Level × String)) : List String :=
  let text := (messages.filter fun m => m.1.enabledIn log).flatMap fun m =>
    ("portcall[" ++ m.1.tag ++ "] " ++ m.2).toList ++ ['\n']
  (linesOf text).map String.ofList

def ofNotices (log : Level) (notices : List Notice) : List String :=
  written log (notices.map fun n => (n.level, n.message))

end Log

end CallExchange
