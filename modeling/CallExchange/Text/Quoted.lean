import CallExchange.Text.Unprinted

set_option autoImplicit false

/-!
# Quoted text

The diagnostic form of a text: in double quotes, with a backslash before quotes and backslashes,
short names for four controls, and by hexadecimal number whatever has no visible form of its own.
-/

namespace CallExchange.Text

def hexDigits (n : Nat) : List Char := Nat.toDigits 16 n

def quoteChar (c : Char) : List Char :=
  if c = '"' then ['\\', '"']
  else if c = '\\' then ['\\', '\\']
  else if c = '\n' then ['\\', 'n']
  else if c = '\r' then ['\\', 'r']
  else if c = '\t' then ['\\', 't']
  else if c.toNat = 0 then ['\\', '0']
  else if c.toNat < 32 || isUnprinted c then '\\' :: 'u' :: '\x7b' :: hexDigits c.toNat ++ ['\x7d']
  else [c]

def quoted (s : String) : String :=
  String.ofList ('"' :: s.toList.flatMap quoteChar ++ ['"'])

end CallExchange.Text
