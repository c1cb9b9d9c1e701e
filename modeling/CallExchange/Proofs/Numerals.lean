import CallExchange.Text.Blank
import CallExchange.Text.Numeral
import Mathlib.Data.Nat.Digits.Lemmas
import Mathlib.Tactic.IntervalCases

set_option autoImplicit false

/-!
# What numerals denote

A numeral is read as the number that its digits denote to the base ten, and every row of digits with
a plus before it or without one is a numeral. Those that denote zero are the rows of zeros.
-/

namespace CallExchange.Text.Numeral

/-- Digits in a row, the first of them the one of most weight, and what they denote. -/
def Row (cs : List Char) (n : Nat) : Prop :=
  ∃ ds : List Nat, ds ≠ [] ∧ (∀ d ∈ ds, d < 10) ∧ cs = ds.map Nat.digitChar ∧
    n = Nat.ofDigits 10 ds.reverse

/-- What a numeral without a sign or with a plus denotes. -/
def Denotes (cs : List Char) (n : Nat) : Prop := Row cs n ∨ ∃ row, cs = '+' :: row ∧ Row row n

def IsZero (cs : List Char) : Prop :=
  ∃ k, cs = List.replicate (k + 1) '0' ∨ cs = '+' :: List.replicate (k + 1) '0'

variable {c : Char} {cs : List Char} {n m most : Nat}

theorem digit?_digitChar {d : Nat} (h : d < 10) : digit? (Nat.digitChar d) = some d := by
  interval_cases d <;> rfl

theorem digit?_eq_some {d : Nat} : digit? c = some d ↔ d < 10 ∧ c = Nat.digitChar d := by
  constructor
  · intro h
    rw [digit?, Option.ite_none_right_eq_some] at h
    obtain ⟨⟨hlow, hhigh⟩, hd⟩ := h
    have hlt : d < 10 := by
      rw [← Option.some.inj hd]
      omega
    refine ⟨hlt, ?_⟩
    have hc : c = Char.ofNat (48 + d) := by
      rw [← Char.ofNat_toNat c]
      congr 1
      rw [← Option.some.inj hd]
      omega
    rw [hc]
    interval_cases d <;> rfl
  · rintro ⟨h, rfl⟩
    exact digit?_digitChar h

/-- Reading on after the value `n` reads the rest of the row. -/
theorem extend?_eq_some : extend? n cs = some m ↔
    ∃ ds : List Nat, (∀ d ∈ ds, d < 10) ∧ cs = ds.map Nat.digitChar ∧
      m = n * 10 ^ ds.length + Nat.ofDigits 10 ds.reverse := by
  induction cs generalizing n with
  | nil =>
    constructor
    · intro h
      refine ⟨[], List.forall_mem_nil _, rfl, ?_⟩
      rw [← Option.some.inj h]
      simp
    · rintro ⟨ds, -, hcs, rfl⟩
      rw [List.map_eq_nil_iff.1 hcs.symm]
      simp [extend?]
  | cons c cs ih =>
    have hvalue : ∀ (d : Nat) (ds : List Nat),
        (10 * n + d) * 10 ^ ds.length + Nat.ofDigits 10 ds.reverse =
          n * 10 ^ (d :: ds).length + Nat.ofDigits 10 (d :: ds).reverse := by
      intro d ds
      rw [List.reverse_cons, Nat.ofDigits_append, List.length_reverse, Nat.ofDigits_singleton,
        List.length_cons, Nat.pow_succ]
      ring
    rw [extend?, Option.bind_eq_some_iff]
    constructor
    · rintro ⟨d, hd, hrest⟩
      obtain ⟨hlt, rfl⟩ := digit?_eq_some.1 hd
      obtain ⟨ds, hall, rfl, rfl⟩ := ih.1 hrest
      exact ⟨d :: ds, List.forall_mem_cons.2 ⟨hlt, hall⟩, rfl, hvalue d ds⟩
    · rintro ⟨ds, hall, hcs, rfl⟩
      cases ds with
      | nil => cases hcs
      | cons d ds =>
        obtain ⟨hlt, hall⟩ := List.forall_mem_cons.1 hall
        obtain ⟨rfl, rfl⟩ := List.cons.inj hcs
        exact ⟨d, digit?_digitChar hlt, ih.2 ⟨ds, hall, rfl, (hvalue d ds).symm⟩⟩

theorem digits?_eq_some : digits? cs = some n ↔ Row cs n := by
  cases cs with
  | nil =>
    refine iff_of_false nofun ?_
    rintro ⟨ds, hne, -, hcs, -⟩
    exact hne (List.map_eq_nil_iff.1 hcs.symm)
  | cons c cs =>
    rw [digits?, extend?_eq_some]
    constructor
    · rintro ⟨ds, hall, hcs, rfl⟩
      refine ⟨ds, ?_, hall, hcs, by rw [Nat.zero_mul, Nat.zero_add]⟩
      rintro rfl
      cases hcs
    · rintro ⟨ds, -, hall, hcs, rfl⟩
      exact ⟨ds, hall, hcs, by rw [Nat.zero_mul, Nat.zero_add]⟩

theorem Row.digit (h : Row (c :: cs) n) : ∃ d, digit? c = some d := by
  obtain ⟨ds, -, hall, hcs, -⟩ := h
  cases ds with
  | nil => cases hcs
  | cons d ds =>
    obtain ⟨rfl, -⟩ := List.cons.inj hcs
    exact ⟨d, digit?_digitChar (List.forall_mem_cons.1 hall).1⟩

theorem denotes_plus : Denotes ('+' :: cs) n ↔ Row cs n := by
  constructor
  · rintro (h | ⟨row, hcs, h⟩)
    · obtain ⟨d, hd⟩ := h.digit
      cases hd
    · cases hcs
      exact h
  · exact fun h => .inr ⟨cs, rfl, h⟩

theorem denotes_bare (hcs : ∀ row, cs ≠ '+' :: row) : Denotes cs n ↔ Row cs n := by
  constructor
  · rintro (h | ⟨row, he, -⟩)
    · exact h
    · exact absurd he (hcs row)
  · exact .inl

theorem bounded_eq_some {o : Option Nat} :
    o.bind (bounded most) = some n ↔ o = some n ∧ n ≤ most := by
  rw [Option.bind_eq_some_iff]
  constructor
  · rintro ⟨k, hk, hbound⟩
    rw [bounded, Option.ite_none_right_eq_some] at hbound
    obtain ⟨hle, heq⟩ := hbound
    cases heq
    exact ⟨hk, hle⟩
  · rintro ⟨hn, hle⟩
    exact ⟨n, hn, if_pos hle⟩

/-- What is read is what a numeral denotes, as long as that is no more than it may be. -/
theorem unsigned?_eq_some : unsigned? most cs = some n ↔ Denotes cs n ∧ n ≤ most := by
  unfold unsigned?
  split
  · rw [bounded_eq_some, digits?_eq_some, denotes_plus]
  · rename_i hcs
    rw [bounded_eq_some, digits?_eq_some, denotes_bare hcs]

theorem Denotes.unique (h : Denotes cs n) (h' : Denotes cs m) : n = m := by
  have hn := unsigned?_eq_some.2 ⟨h, Nat.le_max_left n m⟩
  have hm := unsigned?_eq_some.2 ⟨h', Nat.le_max_right n m⟩
  exact Option.some.inj (hn.symm.trans hm)

theorem Denotes.start (h : Denotes (c :: cs) n) : c = '+' ∨ ∃ d, digit? c = some d := by
  rcases h with h | ⟨row, hcs, -⟩
  · exact .inr h.digit
  · exact .inl (List.cons.inj hcs).1

theorem row_zero_iff : Row cs 0 ↔ ∃ k, cs = List.replicate (k + 1) '0' := by
  constructor
  · rintro ⟨ds, hne, -, rfl, hzero⟩
    have hall : ∀ d ∈ ds, d = 0 := fun d hd =>
      Nat.digits_zero_of_eq_zero (by decide) hzero.symm d (List.mem_reverse.2 hd)
    obtain ⟨k, hk⟩ : ∃ k, ds.length = k + 1 :=
      Nat.exists_eq_succ_of_ne_zero fun h => hne (List.length_eq_zero_iff.1 h)
    refine ⟨k, ?_⟩
    rw [List.eq_replicate_of_mem hall, hk, List.map_replicate]
    rfl
  · rintro ⟨k, rfl⟩
    refine ⟨List.replicate (k + 1) 0, List.replicate_succ_ne_nil, ?_, ?_, ?_⟩
    · intro d hd
      rw [List.eq_of_mem_replicate hd]
      decide
    · rw [List.map_replicate]
      rfl
    · rw [List.reverse_replicate, Nat.ofDigits_replicate_zero]

theorem denotes_zero_iff : Denotes cs 0 ↔ IsZero cs := by
  constructor
  · rintro (h | ⟨row, rfl, h⟩)
    · obtain ⟨k, hk⟩ := row_zero_iff.1 h
      exact ⟨k, .inl hk⟩
    · obtain ⟨k, hk⟩ := row_zero_iff.1 h
      exact ⟨k, .inr (congrArg _ hk)⟩
  · rintro ⟨k, rfl | rfl⟩
    · exact .inl (row_zero_iff.2 ⟨k, rfl⟩)
    · exact .inr ⟨_, rfl, row_zero_iff.2 ⟨k, rfl⟩⟩

end CallExchange.Text.Numeral
