import CallExchange.Environment
import CallExchange.Span

set_option autoImplicit false

/-!
# Settings of an exchange

Defaults, their overrides by the environment and by the caller, and the check that an exchange
makes before it comes up.
-/

namespace CallExchange

inductive NotifierKind where
  /-- A counter of the operating system with a descriptor to poll. -/
  | eventFd
  /-- A counter behind a condition variable. -/
  | condvar
deriving DecidableEq

namespace NotifierKind

def standard : NotifierKind := eventFd

def name : NotifierKind → String
  | eventFd => "eventfd"
  | condvar => "condvar"

def parse? (s : String) : Option NotifierKind :=
  match Text.keyword s with
  | "eventfd" => some eventFd
  | "condvar" => some condvar
  | _ => none

end NotifierKind

structure Settings where
  maxPending : UInt64
  reverseName : String
  /-- How long the managed loop waits in one turn. -/
  pumpInterval : Span
  notifier : NotifierKind
  warnOnDropped : Bool

namespace Settings

def standardPumpMillis : UInt64 := 10

def standard : Settings where
  maxPending := 65536
  reverseName := "portcall.reverse"
  pumpInterval := Span.ofMillis standardPumpMillis
  notifier := .standard
  warnOnDropped := false

def notifierIn (env : Environment) : NotifierKind × List Notice :=
  match env.text? "PORTCALL_NOTIFIER" with
  | none => (.standard, [])
  | some s =>
    match NotifierKind.parse? s with
    | some k => (k, [])
    | none => (.standard, [.unknownNotifier s])

def ofEnvironment (env : Environment) : Settings × List Notice :=
  ({ maxPending := env.getOr Environment.word? "PORTCALL_MAX_PENDING_CALLS" standard.maxPending
     reverseName := env.textOr "PORTCALL_REVERSE_PORT_NAME" standard.reverseName
     pumpInterval := Span.ofMillis
      (env.getOr Environment.word? "PORTCALL_PUMP_INTERVAL_MS" standardPumpMillis)
     notifier := (notifierIn env).1
     warnOnDropped := env.flagOr "PORTCALL_WARN_DROPPED" standard.warnOnDropped },
    (notifierIn env).2)

structure Overrides where
  maxPending : Option UInt64
  reverseName : Option String
  pumpInterval : Option Span
  notifier : Option NotifierKind
  warnOnDropped : Option Bool

def override (s : Settings) (o : Overrides) : Settings where
  maxPending := o.maxPending.getD s.maxPending
  reverseName := o.reverseName.getD s.reverseName
  pumpInterval := o.pumpInterval.getD s.pumpInterval
  notifier := o.notifier.getD s.notifier
  warnOnDropped := o.warnOnDropped.getD s.warnOnDropped

def check (s : Settings) : Except Fault Unit :=
  if s.maxPending = 0 then .error (.invalidSettings "max_pending_calls must be > 0")
  else if (Text.trimChars s.reverseName.toList).isEmpty then
    .error (.invalidSettings "reverse_port_name must not be empty")
  else if s.pumpInterval.isZero then .error (.invalidSettings "pump_interval must be > 0")
  else .ok ()

def printed (s : Settings) : List String :=
  let text :=
    "portcall configuration:\n"
      ++ "  max_pending_calls:  " ++ toString s.maxPending.toNat ++ "\n"
      ++ "  reverse_port_name:  " ++ s.reverseName ++ "\n"
      ++ "  pump_interval:      " ++ s.pumpInterval.diagnostic ++ "\n"
      ++ "  notifier:           " ++ s.notifier.name ++ "\n"
      ++ "  warn_on_dropped:    " ++ toString s.warnOnDropped ++ "\n"
  (Log.linesOf text.toList).map String.ofList

end Settings

end CallExchange
