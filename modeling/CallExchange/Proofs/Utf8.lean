import CallExchange.Text.Utf8
import Mathlib.Data.List.Forall2

set_option autoImplicit false

/-!
# UTF-8 both ways

A text has one sequence of bytes, and reading it strictly undoes writing it: exactly the bytes of a
text are accepted, so no overlong form, surrogate, number past the last character or cut-off tail
is. Reading leniently agrees with that where the bytes are those of a text, and only there.
-/

namespace CallExchange.Text.Utf8

def Tail (b : UInt8) : Prop := 0x80 ≤ b.toNat ∧ b.toNat ≤ 0xBF

/-- The bytes of one character. The conditions on the second byte leave out what could be written
shorter, surrogates, and what is past the last character. -/
inductive WellFormed : List UInt8 → Prop where
  | one {a : UInt8} (ha : a.toNat ≤ 0x7F) : WellFormed [a]
  | two {a b : UInt8} (ha : 0xC2 ≤ a.toNat ∧ a.toNat ≤ 0xDF) (hb : Tail b) : WellFormed [a, b]
  | three {a b c : UInt8} (ha : 0xE0 ≤ a.toNat ∧ a.toNat ≤ 0xEF) (hb : Tail b)
      (hlow : a.toNat = 0xE0 → 0xA0 ≤ b.toNat) (hhigh : a.toNat = 0xED → b.toNat ≤ 0x9F)
      (hc : Tail c) : WellFormed [a, b, c]
  | four {a b c d : UInt8} (ha : 0xF0 ≤ a.toNat ∧ a.toNat ≤ 0xF4) (hb : Tail b)
      (hlow : a.toNat = 0xF0 → 0x90 ≤ b.toNat) (hhigh : a.toNat = 0xF4 → b.toNat ≤ 0x8F)
      (hc : Tail c) (hd : Tail d) : WellFormed [a, b, c, d]

variable {a b : UInt8} {bs ts rest : List UInt8} {c : Char} {s : String}

theorem isTail_iff : isTail b = true ↔ Tail b := by
  simp [isTail, Tail, UInt8.le_iff_toNat_le]

theorem toNat_ofNat {n : Nat} (h : n.isValidChar) : (Char.ofNat n).val.toNat = n := by
  rw [Char.ofNat, dif_pos h]
  exact UInt32.toNat_ofNatLT

theorem byte_eq {n : Nat} (h : n = b.toNat) : UInt8.ofNat n = b := by
  rw [h, UInt8.ofNat_toNat]

/-- The character that is put together from the bytes of one is written as these bytes. -/
theorem WellFormed.encode_join (h : WellFormed (a :: ts)) :
    String.utf8EncodeChar (join a ts) = a :: ts := by
  cases h with
  | one ha =>
    have hjoin : join a [] = Char.ofNat (a.toNat % 128) := rfl
    have hvalid : (a.toNat % 128).isValidChar := .inl (by omega)
    rw [hjoin]
    simp only [String.utf8EncodeChar, toNat_ofNat hvalid]
    rw [if_pos (by omega), byte_eq (b := a) (by omega)]
  | @two _ b ha hb =>
    have hjoin : join a [b] = Char.ofNat (64 * (a.toNat % 32) + b.toNat % 64) := rfl
    have hvalid : (64 * (a.toNat % 32) + b.toNat % 64).isValidChar := .inl (by omega)
    obtain ⟨hb, hb'⟩ := hb
    rw [hjoin]
    simp only [String.utf8EncodeChar, toNat_ofNat hvalid]
    rw [if_neg (by omega), if_pos (by omega), byte_eq (b := a) (by omega),
      byte_eq (b := b) (by omega)]
  | @three _ b c ha hb hlow hhigh hc =>
    have hjoin : join a [b, c] =
        Char.ofNat (64 * (64 * (a.toNat % 16) + b.toNat % 64) + c.toNat % 64) := rfl
    obtain ⟨hb, hb'⟩ := hb
    obtain ⟨hc, hc'⟩ := hc
    have hvalid : (64 * (64 * (a.toNat % 16) + b.toNat % 64) + c.toNat % 64).isValidChar := by
      by_cases hd : a.toNat = 0xED
      · have := hhigh hd
        exact .inl (by omega)
      · by_cases hd' : a.toNat ≤ 0xEC
        · exact .inl (by omega)
        · exact .inr ⟨by omega, by omega⟩
    rw [hjoin]
    simp only [String.utf8EncodeChar, toNat_ofNat hvalid]
    rw [if_neg (by omega), if_neg (by omega), if_pos (by omega), byte_eq (b := a) (by omega),
      byte_eq (b := b) (by omega), byte_eq (b := c) (by omega)]
  | @four _ b c d ha hb hlow hhigh hc hd =>
    have hjoin : join a [b, c, d] = Char.ofNat
        (64 * (64 * (64 * (a.toNat % 8) + b.toNat % 64) + c.toNat % 64) + d.toNat % 64) := rfl
    obtain ⟨hb, hb'⟩ := hb
    obtain ⟨hc, hc'⟩ := hc
    obtain ⟨hd, hd'⟩ := hd
    have hvalid : (64 * (64 * (64 * (a.toNat % 8) + b.toNat % 64) + c.toNat % 64) +
        d.toNat % 64).isValidChar := .inr ⟨by omega, by omega⟩
    rw [hjoin]
    simp only [String.utf8EncodeChar, toNat_ofNat hvalid]
    rw [if_neg (by omega), if_neg (by omega), if_neg (by omega), byte_eq (b := a) (by omega),
      byte_eq (b := b) (by omega), byte_eq (b := c) (by omega), byte_eq (b := d) (by omega)]

theorem toNat_byte {n : Nat} (h : n < 256) : (UInt8.ofNat n).toNat = n := UInt8.toNat_ofNat_of_lt' h

theorem tail_byte (n : Nat) : Tail (UInt8.ofNat (n % 64 + 128)) := by
  rw [Tail, toNat_byte (by omega)]
  omega

theorem wellFormed_encodeChar (c : Char) : WellFormed (String.utf8EncodeChar c) := by
  have hvalid : c.val.toNat < 0xD800 ∨ 0xDFFF < c.val.toNat ∧ c.val.toNat < 0x110000 := c.valid
  unfold String.utf8EncodeChar
  dsimp only
  generalize c.val.toNat = v at hvalid ⊢
  split
  · refine .one ?_
    rw [toNat_byte (by omega)]
    omega
  · split
    · refine .two ?_ (tail_byte v)
      rw [toNat_byte (by omega)]
      omega
    · split
      · refine .three ?_ (tail_byte (v / 64)) ?_ ?_ (tail_byte v) <;>
          repeat rw [toNat_byte (by omega)]
        all_goals omega
      · refine .four ?_ (tail_byte (v / 4096)) ?_ ?_ (tail_byte (v / 64)) (tail_byte v) <;>
          repeat rw [toNat_byte (by omega)]
        all_goals omega

theorem expected_eq (a : UInt8) : expected a =
    if a.toNat ≤ 0x7F then some []
    else if a.toNat < 0xC2 then none
    else if a.toNat ≤ 0xDF then some [isTail]
    else if a.toNat = 0xE0 then some [fun b => 0xA0 ≤ b && b ≤ 0xBF, isTail]
    else if a.toNat = 0xED then some [fun b => 0x80 ≤ b && b ≤ 0x9F, isTail]
    else if a.toNat ≤ 0xEF then some [isTail, isTail]
    else if a.toNat = 0xF0 then some [fun b => 0x90 ≤ b && b ≤ 0xBF, isTail, isTail]
    else if a.toNat ≤ 0xF3 then some [isTail, isTail, isTail]
    else if a.toNat = 0xF4 then some [fun b => 0x80 ≤ b && b ≤ 0x8F, isTail, isTail]
    else none := by
  simp only [expected, UInt8.le_iff_toNat_le, UInt8.lt_iff_toNat_lt, ← UInt8.toNat_inj]
  rfl

abbrev Satisfy (ps : List (UInt8 → Bool)) (ts : List UInt8) : Prop :=
  List.Forall₂ (fun p b => p b = true) ps ts

theorem between_iff (m n : UInt8) :
    (decide (m ≤ b) && decide (b ≤ n)) = true ↔ m.toNat ≤ b.toNat ∧ b.toNat ≤ n.toNat := by
  rw [Bool.and_eq_true, decide_eq_true_iff, decide_eq_true_iff, UInt8.le_iff_toNat_le,
    UInt8.le_iff_toNat_le]

theorem WellFormed.satisfy (h : WellFormed (a :: ts)) :
    ∃ ps, expected a = some ps ∧ Satisfy ps ts := by
  rw [expected_eq]
  cases h with
  | one ha => exact ⟨[], if_pos ha, .nil⟩
  | two ha hb =>
    refine ⟨[isTail], ?_, .cons (isTail_iff.2 hb) .nil⟩
    rw [if_neg (by omega), if_neg (by omega), if_pos (by omega)]
  | three ha hb hlow hhigh hc =>
    have htail := isTail_iff.2 hc
    rw [if_neg (by omega), if_neg (by omega), if_neg (by omega)]
    by_cases he0 : a.toNat = 0xE0
    · rw [if_pos he0]
      exact ⟨_, rfl, .cons ((between_iff _ _).2 ⟨hlow he0, hb.2⟩) (.cons htail .nil)⟩
    · rw [if_neg he0]
      by_cases hed : a.toNat = 0xED
      · rw [if_pos hed]
        exact ⟨_, rfl, .cons ((between_iff _ _).2 ⟨hb.1, hhigh hed⟩) (.cons htail .nil)⟩
      · rw [if_neg hed, if_pos (by omega)]
        exact ⟨_, rfl, .cons (isTail_iff.2 hb) (.cons htail .nil)⟩
  | four ha hb hlow hhigh hc hd =>
    have htail := isTail_iff.2 hc
    have hlast := isTail_iff.2 hd
    rw [if_neg (by omega), if_neg (by omega), if_neg (by omega), if_neg (by omega),
      if_neg (by omega), if_neg (by omega)]
    by_cases hf0 : a.toNat = 0xF0
    · rw [if_pos hf0]
      exact ⟨_, rfl, .cons ((between_iff _ _).2 ⟨hlow hf0, hb.2⟩) (.cons htail (.cons hlast .nil))⟩
    · rw [if_neg hf0]
      by_cases hf4 : a.toNat = 0xF4
      · rw [if_neg (by omega), if_pos hf4]
        exact ⟨_, rfl, .cons ((between_iff _ _).2 ⟨hb.1, hhigh hf4⟩) (.cons htail (.cons hlast .nil))⟩
      · rw [if_pos (by omega)]
        exact ⟨_, rfl, .cons (isTail_iff.2 hb) (.cons htail (.cons hlast .nil))⟩

theorem wellFormed_of_satisfy {ps : List (UInt8 → Bool)} (he : expected a = some ps)
    (h : Satisfy ps ts) : WellFormed (a :: ts) := by
  rw [expected_eq] at he
  have htwo : ∀ {p q : UInt8 → Bool}, Satisfy [p, q] ts →
      ∃ b c, p b = true ∧ q c = true ∧ ts = [b, c] := by
    rintro p q (_ | ⟨hp, _ | ⟨hq, ⟨⟩⟩⟩)
    exact ⟨_, _, hp, hq, rfl⟩
  have hthree : ∀ {p q r : UInt8 → Bool}, Satisfy [p, q, r] ts →
      ∃ b c d, p b = true ∧ q c = true ∧ r d = true ∧ ts = [b, c, d] := by
    rintro p q r (_ | ⟨hp, _ | ⟨hq, _ | ⟨hr, ⟨⟩⟩⟩⟩)
    exact ⟨_, _, _, hp, hq, hr, rfl⟩
  split_ifs at he with h1 h2 h3 h4 h5 h6 h7 h8 h9 <;> cases he
  · cases h
    exact .one h1
  · obtain _ | ⟨hp, ⟨⟩⟩ := h
    exact .two ⟨by omega, h3⟩ (isTail_iff.1 hp)
  · obtain ⟨b, c, hp, hq, rfl⟩ := htwo h
    obtain ⟨(hb : 0xA0 ≤ b.toNat), (hb' : b.toNat ≤ 0xBF)⟩ := (between_iff _ _).1 hp
    exact .three ⟨by omega, by omega⟩ ⟨by omega, hb'⟩ (fun _ => hb) (by omega) (isTail_iff.1 hq)
  · obtain ⟨b, c, hp, hq, rfl⟩ := htwo h
    obtain ⟨(hb : 0x80 ≤ b.toNat), (hb' : b.toNat ≤ 0x9F)⟩ := (between_iff _ _).1 hp
    exact .three ⟨by omega, by omega⟩ ⟨hb, by omega⟩ (by omega) (fun _ => hb') (isTail_iff.1 hq)
  · obtain ⟨b, c, hp, hq, rfl⟩ := htwo h
    exact .three ⟨by omega, h6⟩ (isTail_iff.1 hp) (by omega) (by omega) (isTail_iff.1 hq)
  · obtain ⟨b, c, d, hp, hq, hr, rfl⟩ := hthree h
    obtain ⟨(hb : 0x90 ≤ b.toNat), (hb' : b.toNat ≤ 0xBF)⟩ := (between_iff _ _).1 hp
    exact .four ⟨by omega, by omega⟩ ⟨by omega, hb'⟩ (fun _ => hb) (by omega) (isTail_iff.1 hq)
      (isTail_iff.1 hr)
  · obtain ⟨b, c, d, hp, hq, hr, rfl⟩ := hthree h
    exact .four ⟨by omega, by omega⟩ (isTail_iff.1 hp) (by omega) (by omega) (isTail_iff.1 hq)
      (isTail_iff.1 hr)
  · obtain ⟨b, c, d, hp, hq, hr, rfl⟩ := hthree h
    obtain ⟨(hb : 0x80 ≤ b.toNat), (hb' : b.toNat ≤ 0x8F)⟩ := (between_iff _ _).1 hp
    exact .four ⟨by omega, by omega⟩ ⟨hb, by omega⟩ (by omega) (fun _ => hb') (isTail_iff.1 hq)
      (isTail_iff.1 hr)

theorem Satisfy.follow {ps : List (UInt8 → Bool)} (h : Satisfy ps ts) (rest : List UInt8) :
    follow ps (ts ++ rest) = ts := by
  induction h with
  | nil => cases rest <;> rfl
  | @cons p b ps ts hp _ ih =>
    change (if p b = true then b :: Utf8.follow ps (ts ++ rest) else []) = _
    rw [if_pos hp, ih]

theorem satisfy_of_follow {ps : List (UInt8 → Bool)} (h : (follow ps bs).length = ps.length) :
    Satisfy ps (follow ps bs) ∧ ∃ rest, bs = follow ps bs ++ rest := by
  induction ps generalizing bs with
  | nil =>
    refine ⟨?_, bs, ?_⟩ <;> cases bs <;> first | exact .nil | rfl
  | cons p ps ih =>
    cases bs with
    | nil => cases h
    | cons b bs =>
      rw [follow] at h ⊢
      split at h
      · rename_i hp
        rw [if_pos hp]
        obtain ⟨hs, rest, hrest⟩ := ih (Nat.succ.inj h)
        exact ⟨.cons hp hs, rest, congrArg (b :: ·) hrest⟩
      · cases h

theorem WellFormed.front (h : WellFormed (a :: ts)) (rest : List UInt8) :
    front a (ts ++ rest) = (some (join a ts), ts.length) := by
  obtain ⟨ps, he, hs⟩ := h.satisfy
  rw [Utf8.front, he]
  dsimp only
  rw [hs.follow rest, if_pos hs.length_eq.symm]

theorem wellFormed_of_front {n : Nat} (h : front a bs = (some c, n)) :
    ∃ ts rest, WellFormed (a :: ts) ∧ bs = ts ++ rest ∧ n = ts.length ∧ c = join a ts := by
  rw [front] at h
  split at h
  · cases h
  · rename_i ps he
    dsimp only at h
    split at h
    · rename_i hlength
      cases h
      obtain ⟨hs, rest, hrest⟩ := satisfy_of_follow hlength
      exact ⟨_, rest, wellFormed_of_satisfy he hs, hrest, rfl, rfl⟩
    · cases h

theorem scanFrom_eq (n : Nat) (bs : List UInt8) : scanFrom n bs = scan (bs.drop n) := by
  induction n generalizing bs with
  | zero => rfl
  | succ n ih =>
    cases bs with
    | nil => rfl
    | cons b bs => exact ih bs

theorem scan_cons (a : UInt8) (bs : List UInt8) :
    scan (a :: bs) = (front a bs).1 :: scan (bs.drop (front a bs).2) :=
  congrArg ((front a bs).1 :: ·) (scanFrom_eq _ _)

theorem encodeChar_injective : Function.Injective String.utf8EncodeChar := by
  intro c d h
  have hbytes : (String.ofList [c]).toByteArray = (String.ofList [d]).toByteArray := by
    rw [String.toByteArray_ofList, String.toByteArray_ofList, List.utf8Encode_singleton,
      List.utf8Encode_singleton, h]
  exact (List.cons.inj (String.ofList_injective (String.toByteArray_inj.1 hbytes))).1

theorem scan_character (c : Char) (rest : List UInt8) :
    scan (String.utf8EncodeChar c ++ rest) = some c :: scan rest := by
  have hwell := wellFormed_encodeChar c
  cases hbytes : String.utf8EncodeChar c with
  | nil => exact absurd hbytes String.utf8EncodeChar_ne_nil
  | cons a ts =>
    rw [hbytes] at hwell
    have hjoin : join a ts = c :=
      encodeChar_injective (hwell.encode_join.trans hbytes.symm)
    rw [List.cons_append, scan_cons, hwell.front rest, List.drop_left, hjoin]

theorem scan_characters (cs : List Char) :
    scan (cs.flatMap String.utf8EncodeChar) = cs.map some := by
  induction cs with
  | nil => rfl
  | cons c cs ih => rw [List.flatMap_cons, scan_character, ih, List.map_cons]

/-- Bytes without an ill-formed piece are those of the characters that are found in them. -/
theorem eq_of_scan {cs : List Char} (h : scan bs = cs.map some) :
    bs = cs.flatMap String.utf8EncodeChar := by
  induction cs generalizing bs with
  | nil =>
    cases bs with
    | nil => rfl
    | cons a bs => cases h
  | cons c cs ih =>
    cases bs with
    | nil => cases h
    | cons a bs =>
      rw [scan_cons, List.map_cons, List.cons.injEq] at h
      obtain ⟨hc, hrest⟩ := h
      have hfront : front a bs = (some c, (front a bs).2) := Prod.ext hc rfl
      obtain ⟨ts, rest, hwell, rfl, hn, rfl⟩ := wellFormed_of_front hfront
      rw [hn, List.drop_left] at hrest
      rw [List.flatMap_cons, hwell.encode_join, ← ih hrest]
      rfl

/-- A text is written as the library writes it. -/
theorem encode_eq (s : String) : encode s = s.toUTF8.data.toList := by
  rw [String.toUTF8_eq_toByteArray, ← String.utf8Encode_toList, List.utf8Encode,
    List.data_toByteArray]
  rfl

theorem mapM_id_eq_some {α : Type} {os : List (Option α)} {cs : List α} :
    os.mapM id = some cs ↔ os = cs.map some := by
  induction os generalizing cs with
  | nil => cases cs <;> simp
  | cons o os ih =>
    cases o with
    | none => cases cs <;> simp
    | some c =>
      have hstep : (some c :: os).mapM id = (os.mapM id).map (c :: ·) := by
        rw [List.mapM_cons]
        cases os.mapM id <;> rfl
      rw [hstep, Option.map_eq_some_iff]
      constructor
      · rintro ⟨ds, hds, rfl⟩
        rw [ih.1 hds, List.map_cons]
      · intro h
        cases cs with
        | nil => cases h
        | cons d ds =>
          obtain ⟨hc, hos⟩ := List.cons.inj h
          cases hc
          exact ⟨ds, ih.2 hos, rfl⟩

theorem scan_encode (s : String) : scan (encode s) = s.toList.map some := scan_characters s.toList

/-- Exactly the bytes of a text are read as that text. -/
theorem decode?_eq_some : decode? bs = some s ↔ bs = encode s := by
  rw [decode?, Option.map_eq_some_iff]
  constructor
  · rintro ⟨cs, hcs, rfl⟩
    rw [eq_of_scan (mapM_id_eq_some.1 hcs), encode, String.toList_ofList]
  · rintro rfl
    exact ⟨s.toList, mapM_id_eq_some.2 (scan_encode s), String.ofList_toList⟩

theorem decodeLenient_encode (s : String) : decodeLenient (encode s) = s := by
  rw [decodeLenient, scan_encode, List.map_map]
  change String.ofList (s.toList.map id) = s
  rw [List.map_id, String.ofList_toList]

/-- What is read leniently is written as it was exactly where it can be read strictly. -/
theorem encode_decodeLenient : encode (decodeLenient bs) = bs ↔ (decode? bs).isSome = true := by
  constructor
  · intro h
    rw [decode?_eq_some.2 h.symm]
    rfl
  · intro h
    obtain ⟨s, hs⟩ := Option.isSome_iff_exists.1 h
    rw [decode?_eq_some.1 hs, decodeLenient_encode]

end CallExchange.Text.Utf8
