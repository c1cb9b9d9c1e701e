import CallExchange.Codec.Tagged
import Mathlib.Data.List.Basic

set_option autoImplicit false

/-!
# The tagged format

What a value says in the tagged format is laid down without the codec: a list of a tag and a payload
that can be read says what the tag is for, and anything else is malformed for one reason. The codec
finds exactly that, so no other value is taken for a result, and what the other side writes comes
out as it was written.
-/

namespace CallExchange

variable {α ε : Type}

theorem Tag.ofCode?_of_lt {n : Nat} (h : 2 < n) : Tag.ofCode? n = none := by
  match n with
  | 0 | 1 | 2 => omega
  | n + 3 => rfl

namespace TaggedCodec

/-- What a value says to a codec that reads payloads as `c` does. -/
inductive Says (c : TaggedCodec α ε) : Value → Decoded α ε → Prop where
  | success (p : Value) (a : α) (h : c.success p = some a) : Says c (.list [.int 0, p]) (.success a)
  | application (p : Value) (e : ε) (h : c.error p = some e) :
      Says c (.list [.int 1, p]) (.application e)
  | abort (s : String) : Says c (.list [.int 2, .text s]) (.abort s)
  /-- An abort whose message is no text leaves the diagnostic form of what it is. -/
  | abortOf (p : Value) (hp : ∀ s, p ≠ .text s) : Says c (.list [.int 2, p]) (.abort p.diagnostic)
  | noList (v : Value) (hv : ∀ items, v ≠ .list items) :
      Says c v (.malformed ("expected [tag, payload], got " ++ v.kind))
  | noPair (items : List Value) (h : items.length ≠ 2) : Says c (.list items)
      (.malformed ("expected [tag, payload], got " ++ toString items.length ++ " element(s)"))
  | noNumber (t p : Value) (ht : ∀ n, t ≠ .int n) :
      Says c (.list [t, p]) (.malformed ("bad tag " ++ t.diagnostic))
  | noByte (n : Int64) (p : Value) (hn : n.toInt < 0 ∨ 255 < n.toInt) :
      Says c (.list [.int n, p]) (.malformed ("bad tag " ++ (Value.int n).diagnostic))
  | noTag (n : Int64) (p : Value) (hn : 2 < n.toInt) (hn' : n.toInt ≤ 255) :
      Says c (.list [.int n, p]) (.malformed ("unknown tag " ++ toString n.toInt.toNat))
  | badSuccess (p : Value) (h : c.success p = none) :
      Says c (.list [.int 0, p]) (.malformed ("bad success payload (" ++ p.kind ++ ")"))
  | badError (p : Value) (h : c.error p = none) :
      Says c (.list [.int 1, p]) (.malformed ("bad error payload (" ++ p.kind ++ ")"))

variable {c : TaggedCodec α ε} {v : Value} {d : Decoded α ε}

theorem decode_noPair {items : List Value} (h : items.length ≠ 2) : c.decode (.list items) =
    .malformed ("expected [tag, payload], got " ++ toString items.length ++ " element(s)") := by
  unfold decode split
  match items with
  | [] => rfl
  | [t] => cases t <;> rfl
  | [t, p] => exact absurd rfl h
  | t :: p :: q :: rest => cases t <;> rfl

theorem decode_noNumber {t : Value} (p : Value) (ht : ∀ n, t ≠ .int n) :
    c.decode (.list [t, p]) = .malformed ("bad tag " ++ t.diagnostic) := by
  cases t with
  | int n => exact absurd rfl (ht n)
  | _ => rfl

theorem decode_noByte {n : Int64} (p : Value) (hn : n.toInt < 0 ∨ 255 < n.toInt) :
    c.decode (.list [.int n, p]) = .malformed ("bad tag " ++ (Value.int n).diagnostic) := by
  have hbyte : ¬ (0 ≤ n.toInt ∧ n.toInt ≤ 255) := by omega
  simp only [decode, split, if_neg hbyte]

theorem decode_byte {n : Int64} (p : Value) (hn : 0 ≤ n.toInt ∧ n.toInt ≤ 255) :
    c.decode (.list [.int n, p]) =
      match Tag.ofCode? n.toInt.toNat with
      | some .success =>
        match c.success p with
        | some a => .success a
        | none => .malformed ("bad success payload (" ++ p.kind ++ ")")
      | some .error =>
        match c.error p with
        | some e => .application e
        | none => .malformed ("bad error payload (" ++ p.kind ++ ")")
      | some .abort => .abort (abortMessage p)
      | none => .malformed ("unknown tag " ++ toString n.toInt.toNat) := by
  have hsplit : split (.list [.int n, p]) = .ok (n.toInt.toNat, p) := if_pos hn
  unfold decode
  generalize split (.list [.int n, p]) = s at hsplit ⊢
  subst hsplit
  rfl

theorem abortMessage_of_noText {p : Value} (hp : ∀ s, p ≠ .text s) :
    abortMessage p = p.diagnostic := by
  cases p with
  | text s => exact absurd rfl (hp s)
  | _ => rfl

theorem Says.decode_eq (h : c.Says v d) : c.decode v = d := by
  cases h with
  | success p a h =>
    rw [decode_byte p (by decide)]
    change (match c.success p with | some a => _ | none => _) = _
    rw [h]
  | application p e h =>
    rw [decode_byte p (by decide)]
    change (match c.error p with | some a => _ | none => _) = _
    rw [h]
  | abort s => exact decode_byte (.text s) (by decide)
  | abortOf p hp => exact (decode_byte p (by decide)).trans (congrArg _ (abortMessage_of_noText hp))
  | noList _ hv =>
    cases v with
    | list items => exact absurd rfl (hv items)
    | _ => rfl
  | noPair items h => exact decode_noPair h
  | noNumber t p ht => exact decode_noNumber p ht
  | noByte n p hn => exact decode_noByte p hn
  | noTag n p hn hn' =>
    rw [decode_byte p (by omega), Tag.ofCode?_of_lt (by omega)]
  | badSuccess p h =>
    rw [decode_byte p (by decide)]
    change (match c.success p with | some a => _ | none => _) = _
    rw [h]
  | badError p h =>
    rw [decode_byte p (by decide)]
    change (match c.error p with | some a => _ | none => _) = _
    rw [h]

theorem says_abortMessage (p : Value) : c.Says (.list [.int 2, p]) (.abort (abortMessage p)) := by
  by_cases hp : ∃ s, p = .text s
  · obtain ⟨s, rfl⟩ := hp
    exact .abort s
  · have hp : ∀ s, p ≠ .text s := fun s hs => hp ⟨s, hs⟩
    rw [abortMessage_of_noText hp]
    exact .abortOf p hp

theorem exists_says_int (n : Int64) (p : Value) : ∃ d, c.Says (.list [.int n, p]) d := by
  by_cases hbyte : n.toInt < 0 ∨ 255 < n.toInt
  · exact ⟨_, .noByte n p hbyte⟩
  · obtain h | h | h | h : n.toInt = 0 ∨ n.toInt = 1 ∨ n.toInt = 2 ∨ 2 < n.toInt := by omega
    · have hn : n = 0 := Int64.toInt_inj.1 h
      subst hn
      cases hp : c.success p with
      | some a => exact ⟨_, .success p a hp⟩
      | none => exact ⟨_, .badSuccess p hp⟩
    · have hn : n = 1 := Int64.toInt_inj.1 h
      subst hn
      cases hp : c.error p with
      | some e => exact ⟨_, .application p e hp⟩
      | none => exact ⟨_, .badError p hp⟩
    · have hn : n = 2 := Int64.toInt_inj.1 h
      subst hn
      exact ⟨_, says_abortMessage p⟩
    · exact ⟨_, .noTag n p h (by omega)⟩

theorem exists_says (v : Value) : ∃ d, c.Says v d := by
  by_cases hv : ∃ items, v = .list items
  · obtain ⟨items, rfl⟩ := hv
    by_cases hlength : items.length = 2
    · obtain ⟨t, p, rfl⟩ := List.length_eq_two.1 hlength
      by_cases ht : ∃ n, t = .int n
      · obtain ⟨n, rfl⟩ := ht
        exact exists_says_int n p
      · exact ⟨_, .noNumber t p fun n hn => ht ⟨n, hn⟩⟩
    · exact ⟨_, .noPair items hlength⟩
  · exact ⟨_, .noList v fun items hitems => hv ⟨items, hitems⟩⟩

/-- Every value says one thing, which is what the codec finds. -/
theorem says_iff : c.Says v d ↔ c.decode v = d := by
  refine ⟨Says.decode_eq, fun h => ?_⟩
  obtain ⟨d', hd⟩ := c.exists_says v
  rw [← h, hd.decode_eq]
  exact hd

theorem decode_eq_success {a : α} :
    c.decode v = .success a ↔ ∃ p, v = .list [.int 0, p] ∧ c.success p = some a := by
  rw [← says_iff]
  constructor
  · intro h
    cases h with
    | success p _ hp => exact ⟨p, rfl, hp⟩
  · rintro ⟨p, rfl, hp⟩
    exact .success p a hp

theorem decode_eq_application {e : ε} :
    c.decode v = .application e ↔ ∃ p, v = .list [.int 1, p] ∧ c.error p = some e := by
  rw [← says_iff]
  constructor
  · intro h
    cases h with
    | application p _ hp => exact ⟨p, rfl, hp⟩
  · rintro ⟨p, rfl, hp⟩
    exact .application p e hp

theorem decode_eq_abort {m : String} :
    c.decode v = .abort m ↔ ∃ p, v = .list [.int 2, p] ∧
      (p = .text m ∨ (∀ s, p ≠ .text s) ∧ m = p.diagnostic) := by
  rw [← says_iff]
  constructor
  · intro h
    cases h with
    | abort => exact ⟨_, rfl, .inl rfl⟩
    | abortOf p hp => exact ⟨p, rfl, .inr ⟨hp, rfl⟩⟩
  · rintro ⟨p, rfl, rfl | ⟨hp, rfl⟩⟩
    · exact .abort m
    · exact .abortOf p hp

def Readable (c : TaggedCodec α ε) (v : Value) : Prop :=
  ∃ p, v = .list [.int 0, p] ∧ (c.success p).isSome ∨ v = .list [.int 1, p] ∧ (c.error p).isSome ∨
    v = .list [.int 2, p]

theorem decode_malformed_iff : (∃ why, c.decode v = .malformed why) ↔ ¬ c.Readable v := by
  constructor
  · rintro ⟨why, hwhy⟩ ⟨p, ⟨rfl, hp⟩ | ⟨rfl, hp⟩ | rfl⟩
    · obtain ⟨a, ha⟩ := Option.isSome_iff_exists.1 hp
      rw [decode_eq_success.2 ⟨p, rfl, ha⟩] at hwhy
      cases hwhy
    · obtain ⟨e, he⟩ := Option.isSome_iff_exists.1 hp
      rw [decode_eq_application.2 ⟨p, rfl, he⟩] at hwhy
      cases hwhy
    · rw [(says_abortMessage p).decode_eq] at hwhy
      cases hwhy
  · intro h
    cases hd : c.decode v with
    | malformed why => exact ⟨why, rfl⟩
    | success a =>
      obtain ⟨p, hv, hp⟩ := decode_eq_success.1 hd
      exact absurd ⟨p, .inl ⟨hv, by rw [hp]; rfl⟩⟩ h
    | application e =>
      obtain ⟨p, hv, hp⟩ := decode_eq_application.1 hd
      exact absurd ⟨p, .inr (.inl ⟨hv, by rw [hp]; rfl⟩)⟩ h
    | abort m =>
      obtain ⟨p, hv, -⟩ := decode_eq_abort.1 hd
      exact absurd ⟨p, .inr (.inr hv)⟩ h

theorem tag_of_readable {t p : Value} (h : c.Readable (.list [t, p])) :
    t = .int 0 ∨ t = .int 1 ∨ t = .int 2 := by
  obtain ⟨q, ⟨he, -⟩ | ⟨he, -⟩ | he⟩ := h <;> cases he
  · exact .inl rfl
  · exact .inr (.inl rfl)
  · exact .inr (.inr rfl)

theorem decode_success (p : Value) (a : α) :
    c.decode (.success p) = .success a ↔ c.success p = some a := by
  refine decode_eq_success.trans ⟨?_, fun h => ⟨p, rfl, h⟩⟩
  rintro ⟨q, hq, ha⟩
  cases hq
  exact ha

theorem decode_error (p : Value) (e : ε) :
    c.decode (.error p) = .application e ↔ c.error p = some e := by
  refine decode_eq_application.trans ⟨?_, fun h => ⟨p, rfl, h⟩⟩
  rintro ⟨q, hq, he⟩
  cases hq
  exact he

theorem decode_abort (m : String) : c.decode (.abort m) = .abort m :=
  decode_eq_abort.2 ⟨.text m, rfl, .inl rfl⟩

/-- The codec accepts the tagged format and nothing else: each result comes from the one kind of
value that says so, every other value is malformed for the reason that it has, and what is written
as a result is read as that result. -/
theorem decode_accepts (c : TaggedCodec α ε) (v : Value) :
    (∀ d, c.decode v = d ↔ c.Says v d) ∧
    (∀ a, c.decode v = .success a ↔ ∃ p, v = .list [.int 0, p] ∧ c.success p = some a) ∧
    (∀ e, c.decode v = .application e ↔ ∃ p, v = .list [.int 1, p] ∧ c.error p = some e) ∧
    (∀ m, c.decode v = .abort m ↔ ∃ p, v = .list [.int 2, p] ∧
      (p = .text m ∨ (∀ s, p ≠ .text s) ∧ m = p.diagnostic)) ∧
    ((∃ why, c.decode v = .malformed why) ↔ ¬ c.Readable v) ∧
    (∀ items : List Value, items.length = 2 ∨ ∃ why, c.decode (.list items) = .malformed why) ∧
    (∀ t p : Value, t = .int 0 ∨ t = .int 1 ∨ t = .int 2 ∨
      ∃ why, c.decode (.list [t, p]) = .malformed why) ∧
    (∀ p a, c.decode (.success p) = .success a ↔ c.success p = some a) ∧
    (∀ p e, c.decode (.error p) = .application e ↔ c.error p = some e) ∧
    ∀ m, c.decode (.abort m) = .abort m := by
  refine ⟨fun d => says_iff.symm, fun a => decode_eq_success, fun e => decode_eq_application,
    fun m => decode_eq_abort, decode_malformed_iff, fun items => ?_, fun t p => ?_, decode_success,
    decode_error, decode_abort⟩
  · by_cases h : items.length = 2
    · exact .inl h
    · exact .inr ⟨_, decode_noPair h⟩
  · by_cases h : c.Readable (.list [t, p])
    · rcases tag_of_readable h with h | h | h
      · exact .inl h
      · exact .inr (.inl h)
      · exact .inr (.inr (.inl h))
    · exact .inr (.inr (.inr (decode_malformed_iff.2 h)))

/-- A number that would be the tag of a success if only its lowest byte were looked at. -/
example : (⟨Value.int?, Value.text?, none⟩ : TaggedCodec Int64 String).decode
    (.list [.int 256, .int 7]) = .malformed "bad tag Int(256)" := by rfl

end TaggedCodec

end CallExchange
