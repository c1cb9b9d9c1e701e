import CallExchange.Proofs.TaggedFormat
import CallExchange.Proofs.Utf8
import Mathlib.Tactic.IntervalCases

set_option autoImplicit false

/-!
# Returned numbers and texts

The bytes of a word are its digits to the base 256, so a word is read from its own eight bytes and
no others. With UTF-8 for texts a returned buffer then says one thing, like a delivered value, and
what a function reports reads the same whichever of the two it is written as.
-/

namespace CallExchange

namespace LittleEndian

def digits (m k : Nat) : List UInt8 := (List.range m).map fun i => UInt8.ofNat (k / 256 ^ i)

def number (bs : List UInt8) : Nat := bs.foldr (fun b n => 256 * n + b.toNat) 0

theorem digits_succ (m k : Nat) : digits (m + 1) k = UInt8.ofNat k :: digits m (k / 256) := by
  rw [digits, List.range_succ_eq_map, List.map_cons, List.map_map, Nat.pow_zero, Nat.div_one]
  refine congrArg _ (List.map_congr_left fun i _ => ?_)
  change UInt8.ofNat (k / 256 ^ (i + 1)) = UInt8.ofNat (k / 256 / 256 ^ i)
  rw [Nat.div_div_eq_div_mul, Nat.pow_succ, Nat.mul_comm]

theorem number_cons (b : UInt8) (bs : List UInt8) :
    number (b :: bs) = 256 * number bs + b.toNat := rfl

theorem number_lt (bs : List UInt8) : number bs < 256 ^ bs.length := by
  induction bs with
  | nil => exact Nat.one_pos
  | cons b bs ih =>
    have hb := b.toNat_lt
    rw [number_cons, List.length_cons, Nat.pow_succ]
    omega

theorem digits_number (bs : List UInt8) : digits bs.length (number bs) = bs := by
  induction bs with
  | nil => rfl
  | cons b bs ih =>
    have hb := b.toNat_lt
    have hlow : UInt8.ofNat (number (b :: bs)) = b :=
      UInt8.toNat_inj.1 (by rw [UInt8.toNat_ofNat', number_cons]; omega)
    have hhigh : number (b :: bs) / 256 = number bs := by
      rw [number_cons]
      omega
    rw [List.length_cons, digits_succ, hlow, hhigh, ih]

theorem number_digits (m k : Nat) : number (digits m k) = k % 256 ^ m := by
  induction m generalizing k with
  | zero => exact (Nat.mod_one k).symm
  | succ m ih =>
    have hbyte : (UInt8.ofNat k).toNat = k % 256 := UInt8.toNat_ofNat'
    rw [digits_succ, number_cons, ih, hbyte, Nat.pow_succ', Nat.mod_mul, Nat.add_comm]

end LittleEndian

open LittleEndian

theorem bytesOfInt64_eq (n : Int64) : bytesOfInt64 n = digits 8 n.toUInt64.toNat := rfl

theorem length_bytesOfInt64 (n : Int64) : (bytesOfInt64 n).length = 8 := by
  rw [bytesOfInt64_eq, digits, List.length_map, List.length_range]

theorem toNat_word (n : Int64) : (n.toUInt64.toNat : Int) = n.toInt % 2 ^ 64 := by
  have hn : n.toInt = (n.toUInt64.toNat : Int).bmod (2 ^ 64) :=
    BitVec.toInt_eq_toNat_bmod n.toBitVec
  have hmod : n.toInt % 2 ^ 64 = (n.toUInt64.toNat : Int) % 2 ^ 64 := by
    rw [hn]
    exact Int.bmod_emod
  have hlt := n.toUInt64.toNat_lt
  omega

/-- The bytes are those of the two's complement: division rounds down and remainders are not
negative, also for a negative number. -/
theorem bytesOfInt64_digits (n : Int64) : (bytesOfInt64 n).map (fun b => (b.toNat : Int)) =
    (List.range 8).map fun i => n.toInt / 256 ^ i % 256 := by
  rw [bytesOfInt64_eq, digits, List.map_map]
  refine List.map_congr_left fun i hi => ?_
  have hi : i < 8 := List.mem_range.1 hi
  have hbyte : ((UInt8.ofNat (n.toUInt64.toNat / 256 ^ i)).toNat : Int) =
      n.toInt % 2 ^ 64 / 256 ^ i % 256 := by
    rw [← toNat_word, UInt8.toNat_ofNat']
    push_cast
    rfl
  refine hbyte.trans ?_
  interval_cases i <;> omega

theorem int64OfBytes?_eq_some {bs : List UInt8} {n : Int64} :
    int64OfBytes? bs = some n ↔ bs = bytesOfInt64 n := by
  rw [int64OfBytes?]
  change (if bs.length = 8 then some (Int64.ofNat (number bs)) else none) = some n ↔ _
  constructor
  · intro h
    split at h
    next hlength =>
      cases h
      have hlt : number bs < 256 ^ 8 := by
        rw [← hlength]
        exact number_lt bs
      have hword : (Int64.ofNat (number bs)).toUInt64.toNat = number bs :=
        UInt64.toNat_ofNat_of_lt' hlt
      rw [bytesOfInt64_eq, hword, ← hlength, digits_number]
    next => cases h
  · rintro rfl
    have hlt : n.toUInt64.toNat < 256 ^ 8 := n.toUInt64.toNat_lt
    have hword : Int64.ofNat n.toUInt64.toNat = n := by
      rw [← UInt64.toInt64_ofNat', UInt64.ofNat_toNat, Int64.toInt64_toUInt64]
    rw [if_pos (length_bytesOfInt64 n), bytesOfInt64_eq, number_digits, Nat.mod_eq_of_lt hlt, hword]

/-- What the bytes of a buffer say to a codec that reads payloads as `r` does. -/
inductive BufferReaders.Says {α ε : Type} (r : BufferReaders α ε) :
    List UInt8 → Decoded α ε → Prop where
  | success (p : List UInt8) (a : α) (h : r.success p = some a) : Says r (0 :: p) (.success a)
  | application (p : List UInt8) (e : ε) (h : r.error p = some e) : Says r (1 :: p) (.application e)
  | abort (p : List UInt8) : Says r (2 :: p) (.abort (Text.Utf8.decodeLenient p))
  | empty : Says r [] (.malformed "empty sync return")
  | noTag (t : UInt8) (p : List UInt8) (ht : 2 < t.toNat) :
      Says r (t :: p) (.malformed ("unknown sync tag " ++ toString t.toNat))
  | badSuccess (p : List UInt8) (h : r.success p = none) :
      Says r (0 :: p) (.malformed "bad sync success payload")
  | badError (p : List UInt8) (h : r.error p = none) :
      Says r (1 :: p) (.malformed "bad sync error payload")

namespace TaggedCodec

variable {α ε : Type} {c : TaggedCodec α ε} {r : BufferReaders α ε} {b : Buffer} {d : Decoded α ε}

theorem decodeBuffer_cons (hr : c.buffers = some r) (t : UInt8) (p : List UInt8) :
    c.decodeBuffer ⟨t :: p⟩ =
      match Tag.ofCode? t.toNat with
      | some .success =>
        match r.success p with
        | some a => .success a
        | none => .malformed "bad sync success payload"
      | some .error =>
        match r.error p with
        | some e => .application e
        | none => .malformed "bad sync error payload"
      | some .abort => .abort (Text.Utf8.decodeLenient p)
      | none => .malformed ("unknown sync tag " ++ toString t.toNat) := by
  obtain ⟨success, error, buffers⟩ := c
  cases hr
  rfl

theorem decodeBuffer_of_says (hr : c.buffers = some r) (h : r.Says b.bytes d) :
    c.decodeBuffer b = d := by
  obtain ⟨bytes⟩ := b
  cases h with
  | success p a h =>
    rw [decodeBuffer_cons hr]
    change (match r.success p with | some a => _ | none => _) = _
    rw [h]
  | application p e h =>
    rw [decodeBuffer_cons hr]
    change (match r.error p with | some e => _ | none => _) = _
    rw [h]
  | abort p => exact decodeBuffer_cons hr 2 p
  | empty => rfl
  | noTag t p ht => rw [decodeBuffer_cons hr, Tag.ofCode?_of_lt ht]
  | badSuccess p h =>
    rw [decodeBuffer_cons hr]
    change (match r.success p with | some a => _ | none => _) = _
    rw [h]
  | badError p h =>
    rw [decodeBuffer_cons hr]
    change (match r.error p with | some e => _ | none => _) = _
    rw [h]

theorem exists_saysBytes (r : BufferReaders α ε) (bs : List UInt8) : ∃ d, r.Says bs d := by
  match bs with
  | [] => exact ⟨_, .empty⟩
  | t :: p =>
    obtain h | h | h | h : t.toNat = 0 ∨ t.toNat = 1 ∨ t.toNat = 2 ∨ 2 < t.toNat := by omega
    · have ht : t = 0 := UInt8.toNat_inj.1 h
      subst ht
      cases hp : r.success p with
      | some a => exact ⟨_, .success p a hp⟩
      | none => exact ⟨_, .badSuccess p hp⟩
    · have ht : t = 1 := UInt8.toNat_inj.1 h
      subst ht
      cases hp : r.error p with
      | some e => exact ⟨_, .application p e hp⟩
      | none => exact ⟨_, .badError p hp⟩
    · have ht : t = 2 := UInt8.toNat_inj.1 h
      subst ht
      exact ⟨_, .abort p⟩
    · exact ⟨_, .noTag t p h⟩

/-- Every buffer says one thing, which is what a codec with readers finds. -/
theorem decodeBuffer_eq_iff (hr : c.buffers = some r) :
    c.decodeBuffer b = d ↔ r.Says b.bytes d := by
  refine ⟨fun h => ?_, decodeBuffer_of_says hr⟩
  obtain ⟨d', hd⟩ := exists_saysBytes r b.bytes
  rw [← h, decodeBuffer_of_says hr hd]
  exact hd

/-- The codec of a function that returns a number, with texts for its errors. -/
def numbers : TaggedCodec Int64 String :=
  ⟨Value.int?, Value.text?, some ⟨int64OfBytes?, Text.Utf8.decode?⟩⟩

theorem numbers_decode {d : Decoded Int64 String} : numbers.decodeBuffer b = d ↔
    (⟨int64OfBytes?, Text.Utf8.decode?⟩ : BufferReaders Int64 String).Says b.bytes d :=
  decodeBuffer_eq_iff rfl

theorem numbers_success {n : Int64} :
    numbers.decodeBuffer b = .success n ↔ b.bytes = 0 :: bytesOfInt64 n := by
  obtain ⟨bytes⟩ := b
  rw [numbers_decode]
  constructor
  · intro h
    cases h with
    | success p _ hp => exact congrArg (List.cons 0) (int64OfBytes?_eq_some.1 hp)
  · rintro rfl
    exact .success _ n (int64OfBytes?_eq_some.2 rfl)

theorem numbers_application {s : String} :
    numbers.decodeBuffer b = .application s ↔ b.bytes = 1 :: Text.Utf8.encode s := by
  obtain ⟨bytes⟩ := b
  rw [numbers_decode]
  constructor
  · intro h
    cases h with
    | application p _ hp => exact congrArg (List.cons 1) (Text.Utf8.decode?_eq_some.1 hp)
  · rintro rfl
    exact .application _ s (Text.Utf8.decode?_eq_some.2 rfl)

theorem numbers_abort {m : String} : numbers.decodeBuffer b = .abort m ↔
    ∃ p, b.bytes = 2 :: p ∧ m = Text.Utf8.decodeLenient p := by
  obtain ⟨bytes⟩ := b
  rw [numbers_decode]
  constructor
  · intro h
    cases h with
    | abort p => exact ⟨p, rfl, rfl⟩
  · rintro ⟨p, rfl, rfl⟩
    exact .abort p

/-- Whether bytes are a tag and what belongs behind it. -/
def Formed (bs : List UInt8) : Prop :=
  (∃ n, bs = 0 :: bytesOfInt64 n) ∨ (∃ s, bs = 1 :: Text.Utf8.encode s) ∨ ∃ p, bs = 2 :: p

theorem numbers_malformed : (∃ why, numbers.decodeBuffer b = .malformed why) ↔ ¬ Formed b.bytes := by
  constructor
  · rintro ⟨why, hwhy⟩ (⟨n, h⟩ | ⟨s, h⟩ | ⟨p, h⟩)
    · rw [numbers_success.2 h] at hwhy
      cases hwhy
    · rw [numbers_application.2 h] at hwhy
      cases hwhy
    · rw [numbers_abort.2 ⟨p, h, rfl⟩] at hwhy
      cases hwhy
  · intro h
    cases hd : numbers.decodeBuffer b with
    | malformed why => exact ⟨why, rfl⟩
    | success n => exact absurd (.inl ⟨n, numbers_success.1 hd⟩) h
    | application s => exact absurd (.inr (.inl ⟨s, numbers_application.1 hd⟩)) h
    | abort m =>
      obtain ⟨p, hp, -⟩ := numbers_abort.1 hd
      exact absurd (.inr (.inr ⟨p, hp⟩)) h

end TaggedCodec

inductive Reported where
  | number (n : Int64)
  | failure (s : String)
  | aborted (m : String)

namespace Reported

def buffer : Reported → Buffer
  | number n => .success (bytesOfInt64 n)
  | failure s => .error (Text.Utf8.encode s)
  | aborted m => .abort m

def value : Reported → Value
  | number n => .success (.int n)
  | failure s => .error (.text s)
  | aborted m => .abort m

def decoded : Reported → Decoded Int64 String
  | number n => .success n
  | failure s => .application s
  | aborted m => .abort m

theorem decoded_injective : Function.Injective decoded := by
  intro x y h
  cases x <;> cases y <;> cases h <;> rfl

theorem decodeBuffer_buffer (r : Reported) :
    TaggedCodec.numbers.decodeBuffer r.buffer = r.decoded := by
  cases r with
  | number n => exact TaggedCodec.numbers_success.2 rfl
  | failure s => exact TaggedCodec.numbers_application.2 rfl
  | aborted m => exact TaggedCodec.numbers_abort.2 ⟨_, rfl, (Text.Utf8.decodeLenient_encode m).symm⟩

theorem decode_value (r : Reported) : TaggedCodec.numbers.decode r.value = r.decoded := by
  cases r with
  | number n => exact (TaggedCodec.decode_success _ _).2 rfl
  | failure s => exact (TaggedCodec.decode_error _ _).2 rfl
  | aborted m => exact TaggedCodec.decode_abort m

theorem buffer_injective : Function.Injective buffer := fun x y h =>
  decoded_injective (by rw [← decodeBuffer_buffer, h, decodeBuffer_buffer])

theorem value_injective : Function.Injective value := fun x y h =>
  decoded_injective (by rw [← decode_value, h, decode_value])

end Reported

/-- A returned buffer is read exactly: a number from its eight two's-complement bytes, an error from
the UTF-8 of its text, an abort from any bytes, and nothing from any other buffer. Whatever a
function reports reads the same from a buffer and from a value, and no two reports are written
alike. -/
theorem TaggedCodec.buffers_decode_exactly :
    (∀ b n, numbers.decodeBuffer b = .success n ↔ b.bytes = 0 :: bytesOfInt64 n) ∧
    (∀ n, (bytesOfInt64 n).map (fun b => (b.toNat : Int)) =
      (List.range 8).map fun i => n.toInt / 256 ^ i % 256) ∧
    (∀ b s, numbers.decodeBuffer b = .application s ↔ b.bytes = 1 :: Text.Utf8.encode s) ∧
    (∀ s, Text.Utf8.encode s = s.toUTF8.data.toList) ∧
    (∀ b m, numbers.decodeBuffer b = .abort m ↔
      ∃ p, b.bytes = 2 :: p ∧ m = Text.Utf8.decodeLenient p) ∧
    (∀ p, Text.Utf8.encode (Text.Utf8.decodeLenient p) = p ↔ (Text.Utf8.decode? p).isSome = true) ∧
    (∀ p s, Text.Utf8.decode? p = some s ↔ p = Text.Utf8.encode s) ∧
    (∀ b, (∃ why, numbers.decodeBuffer b = .malformed why) ↔ ¬ Formed b.bytes) ∧
    (∀ b d, numbers.decodeBuffer b = d ↔
      (⟨int64OfBytes?, Text.Utf8.decode?⟩ : BufferReaders Int64 String).Says b.bytes d) ∧
    (∀ r : Reported, numbers.decodeBuffer r.buffer = r.decoded ∧ numbers.decode r.value = r.decoded) ∧
    Function.Injective Reported.buffer ∧ Function.Injective Reported.value :=
  ⟨fun _ _ => numbers_success, bytesOfInt64_digits, fun _ _ => numbers_application,
    Text.Utf8.encode_eq, fun _ _ => numbers_abort, fun _ => Text.Utf8.encode_decodeLenient,
    fun _ _ => Text.Utf8.decode?_eq_some, fun _ => numbers_malformed, fun _ _ => numbers_decode,
    fun r => ⟨r.decodeBuffer_buffer, r.decode_value⟩, Reported.buffer_injective,
    Reported.value_injective⟩

/-- An overlong form of the letter A is no text, so it is no error. -/
example : TaggedCodec.numbers.decodeBuffer ⟨[1, 0xC1, 0x81]⟩ =
    .malformed "bad sync error payload" := by rfl

end CallExchange
