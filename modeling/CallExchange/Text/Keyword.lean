import CallExchange.Text.Blank

set_option autoImplicit false

/-!
# Keywords

A keyword is recognised with blanks around it and in any mixture of ASCII capitals and small
letters. No capital outside ASCII has a small form that spells a keyword of this library, so
folding the ASCII letters alone accepts the same texts as folding all letters.
-/

namespace CallExchange.Text

def keyword (s : String) : String :=
  String.ofList ((trimChars s.toList).map Char.toLower)

end CallExchange.Text
