set_option autoImplicit false

/-!
# UTF-8

Bytes are split into well-formed characters and ill-formed pieces. A piece is the longest start of
a character that is cut off or broken, or a single byte that starts none. Reading strictly asks
for no piece at all; reading leniently puts U+FFFD for each piece.
-/

namespace CallExchange.Text.Utf8

def encode (s : String) : List UInt8 := s.toList.flatMap String.utf8EncodeChar

def isTail (b : UInt8) : Bool := 0x80 ≤ b && b ≤ 0xBF

/-- What the bytes after a first byte `a` have to satisfy, one condition a byte; `none` if no
character starts with `a`. Overlong forms, surrogates and values above U+10FFFF are excluded by
the condition on the second byte. -/
def expected (a : UInt8) : Option (List (UInt8 → Bool)) :=
  if a ≤ 0x7F then some []
  else if a < 0xC2 then none
  else if a ≤ 0xDF then some [isTail]
  else if a = 0xE0 then some [fun b => 0xA0 ≤ b && b ≤ 0xBF, isTail]
  else if a = 0xED then some [fun b => 0x80 ≤ b && b ≤ 0x9F, isTail]
  else if a ≤ 0xEF then some [isTail, isTail]
  else if a = 0xF0 then some [fun b => 0x90 ≤ b && b ≤ 0xBF, isTail, isTail]
  else if a ≤ 0xF3 then some [isTail, isTail, isTail]
  else if a = 0xF4 then some [fun b => 0x80 ≤ b && b ≤ 0x8F, isTail, isTail]
  else none

/-- The bytes at the front of `bs` that satisfy the conditions in turn, up to the first that does
not. -/
def follow : List (UInt8 → Bool) → List UInt8 → List UInt8
  | p :: ps, b :: bs => if p b then b :: follow ps bs else []
  | _, _ => []

/-- The weight of the lowest bit of a first byte that is no value bit, by the number of tails. -/
def leadSize : Nat → Nat
  | 0 => 128
  | 1 => 32
  | 2 => 16
  | _ => 8

/-- The character with first byte `a`: its value bits, then six bits of each tail. -/
def join (a : UInt8) (tails : List UInt8) : Char :=
  Char.ofNat (tails.foldl (fun n b => 64 * n + b.toNat % 64) (a.toNat % leadSize tails.length))

/-- The character or ill-formed piece that starts with `a`, and how many bytes of `bs` it takes. -/
def front (a : UInt8) (bs : List UInt8) : Option Char × Nat :=
  match expected a with
  | none => (none, 0)
  | some ps =>
    let tails := follow ps bs
    (if tails.length = ps.length then some (join a tails) else none, tails.length)

/-- The pieces of a text whose first `n` bytes are already accounted for. -/
def scanFrom : Nat → List UInt8 → List (Option Char)
  | _, [] => []
  | n + 1, _ :: bs => scanFrom n bs
  | 0, a :: bs => (front a bs).1 :: scanFrom (front a bs).2 bs

def scan (bs : List UInt8) : List (Option Char) := scanFrom 0 bs

def decode? (bs : List UInt8) : Option String :=
  ((scan bs).mapM id).map String.ofList

/-- The text of these bytes, with U+FFFD for every ill-formed piece. -/
def decodeLenient (bs : List UInt8) : String :=
  String.ofList ((scan bs).map fun c => c.getD '\ufffd')

end CallExchange.Text.Utf8
