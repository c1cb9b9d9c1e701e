import CallExchange.Binary64
import CallExchange.Text.Quoted
import CallExchange.Token

set_option autoImplicit false

/-!
# Values that cross the boundary

A value is what one side posts to a port. A result is written as a list of a tag and a payload;
what a payload means is left to the codec of the call.
-/

namespace CallExchange

inductive Value where
  | null
  | bool (b : Bool)
  | int (n : Int64)
  | double (x : Binary64)
  | text (s : String)
  | bytes (bs : List UInt8)
  | list (items : List Value)
  | callback (t : Token)
  | endOfStream

inductive Tag where
  | success
  | error
  | abort
deriving DecidableEq

namespace Tag

def code : Tag → Nat
  | success => 0
  | error => 1
  | abort => 2

def ofCode? : Nat → Option Tag
  | 0 => some success
  | 1 => some error
  | 2 => some abort
  | _ => none

end Tag

namespace Value

def kind : Value → String
  | null => "null"
  | bool _ => "bool"
  | int _ => "int"
  | double _ => "double"
  | text _ => "string"
  | bytes _ => "bytes"
  | list _ => "array"
  | callback _ => "callback"
  | endOfStream => "control"

def int? : Value → Option Int64
  | int n => some n
  | _ => none

def bool? : Value → Option Bool
  | bool b => some b
  | _ => none

def text? : Value → Option String
  | text s => some s
  | _ => none

def list? : Value → Option (List Value)
  | list items => some items
  | _ => none

def isEndOfStream : Value → Bool
  | endOfStream => true
  | _ => false

def tagged (t : Tag) (payload : Value) : Value :=
  list [int (Int64.ofNat t.code), payload]

def success (payload : Value) : Value := tagged .success payload
def error (payload : Value) : Value := tagged .error payload
def abort (message : String) : Value := tagged .abort (text message)

mutual

/-- Equality of values. Floating-point numbers are compared as numbers, so a value that holds a
NaN does not even equal itself. -/
def same : Value → Value → Bool
  | null, null => true
  | bool a, bool b => a == b
  | int a, int b => a == b
  | double a, double b => a.same b
  | text a, text b => a == b
  | bytes a, bytes b => a == b
  | list as, list bs => sameItems as bs
  | callback a, callback b => a == b
  | endOfStream, endOfStream => true
  | _, _ => false

def sameItems : List Value → List Value → Bool
  | [], [] => true
  | a :: as, b :: bs => same a b && sameItems as bs
  | _, _ => false

end

def commaSeparated (parts : List String) : String := String.intercalate ", " parts

mutual

def diagnostic : Value → String
  | null => "Null"
  | bool b => "Bool(" ++ toString b ++ ")"
  | int n => "Int(" ++ toString n.toInt ++ ")"
  | double x => "Double(" ++ x.diagnostic ++ ")"
  | text s => "Str(" ++ Text.quoted s ++ ")"
  | bytes bs => "Bytes([" ++ commaSeparated (bs.map fun b => toString b.toNat) ++ "])"
  | list items => "Array([" ++ commaSeparated (diagnostics items) ++ "])"
  | callback t => "Callback(" ++ t.diagnostic ++ ")"
  | endOfStream => "Control(EndOfStream)"

def diagnostics : List Value → List String
  | [] => []
  | v :: vs => diagnostic v :: diagnostics vs

end

end Value

end CallExchange
