import CallExchange.Log
import CallExchange.Text.Numeral

set_option autoImplicit false

/-!
# The environment

Variables by name. A variable that is set to bytes which are no text counts as not set. A value
that cannot be read leaves the default in force; it is never an error.
-/

namespace CallExchange

inductive Variable where
  | text (s : String)
  /-- Set, but not to a text. -/
  | unreadable

structure Environment where
  entries : List (String × Variable)

namespace Environment

def text? (env : Environment) (key : String) : Option String :=
  match env.entries.lookup key with
  | some (.text s) => some s
  | _ => none

def textOr (env : Environment) (key fallback : String) : String :=
  (env.text? key).getD fallback

/-- The variable read by `parse` from its text without the blanks around it. -/
def get? {τ : Type} (parse : List Char → Option τ) (env : Environment) (key : String) : Option τ :=
  (env.text? key).bind fun s => parse (Text.trimChars s.toList)

def getOr {τ : Type} (parse : List Char → Option τ) (env : Environment) (key : String)
    (fallback : τ) : τ :=
  (env.get? parse key).getD fallback

def flagOfKeyword? : String → Option Bool
  | "1" | "true" | "yes" | "on" => some true
  | "0" | "false" | "no" | "off" => some false
  | _ => none

def flagOr (env : Environment) (key : String) (fallback : Bool) : Bool :=
  ((env.text? key).bind fun s => flagOfKeyword? (Text.keyword s)).getD fallback

/-- A truth value written out, and in small letters only. -/
def truth? (cs : List Char) : Option Bool :=
  match String.ofList cs with
  | "true" => some true
  | "false" => some false
  | _ => none

def word? (cs : List Char) : Option UInt64 :=
  (Text.Numeral.unsigned? 18446744073709551615 cs).map UInt64.ofNat

def logLevel (env : Environment) : Level :=
  ((env.text? "PORTCALL_LOG_LEVEL").bind Level.parse?).getD .warn

end Environment

end CallExchange
