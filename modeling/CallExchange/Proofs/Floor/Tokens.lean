import CallExchange.Proofs.Floor.Signals
import CallExchange.Proofs.Floor.Sound

set_option autoImplicit false

/-!
# Tokens of callbacks

Tokens are counted up, so that a callback that is registered after some point has a greater token
than all those before it. A shutdown forgets what is registered and counts on.
-/

namespace CallExchange

variable {α ε : Type}

def registrations (h : List (Move α ε × Answer α ε)) : Nat :=
  h.countP fun e => (Move.registered? e).isSome

theorem registrations_cons (e : Move α ε × Answer α ε) (h : List (Move α ε × Answer α ε)) :
    registrations (e :: h) = (Move.registered? e).isSome.toNat + registrations h := by
  rw [registrations, List.countP_cons]
  cases (Move.registered? e).isSome <;> exact Nat.add_comm _ _

theorem registrations_append (h h' : List (Move α ε × Answer α ε)) :
    registrations (h ++ h') = registrations h + registrations h' := List.countP_append

namespace Floor

variable {f f' : Floor α ε} {m : Move α ε} {ms : List (Move α ε)} {old N : Nat} {t : Token}
  {c : Callable Routine} {thread : Option String}

/-- `N` tokens were given out so far, and what is registered now came after the first `old`. -/
structure Numbered (old N : Nat) (f : Floor α ε) : Prop where
  next : f.exchange.callbacks.next.raw.toNat = N + 1
  le : old ≤ N
  later : ∀ e ∈ f.exchange.callbacks.table, old < e.1.raw.toNat

namespace Numbered

theorem kept (h : f.Numbered old N) (hn : f'.exchange.callbacks.next = f.exchange.callbacks.next)
    (ht : ∀ e ∈ f'.exchange.callbacks.table, e ∈ f.exchange.callbacks.table) :
    f'.Numbered old N :=
  ⟨by rw [hn, h.next], h.le, fun e he => h.later e (ht e he)⟩

theorem same (h : f.Numbered old N) (hc : f'.exchange.callbacks = f.exchange.callbacks) :
    f'.Numbered old N :=
  h.kept (by rw [hc]) fun _ he => hc ▸ he

theorem registered (h : f.Numbered old N) (hN : N + 2 < UInt64.size)
    (hc : f'.exchange.callbacks = (f.exchange.callbacks.register c).2) :
    f'.Numbered old (N + 1) := by
  have hnext := h.next
  have hle := h.le
  refine ⟨?_, Nat.le_succ_of_le hle, fun e he => ?_⟩
  · rw [hc]
    change (f.exchange.callbacks.next.raw + 1).toNat = _
    rw [UInt64.toNat_add, hnext]
    exact Nat.mod_eq_of_lt hN
  · rw [hc] at he
    rcases List.mem_append.1 he with hold | hnew
    · exact h.later e hold
    · rw [List.mem_singleton.1 hnew]
      dsimp only
      omega

theorem apply (h : f.Numbered old N)
    (hN : N + (Move.registered? (m, (f.apply thread m).1)).isSome.toNat + 1 < UInt64.size) :
    (f.apply thread m).2.Numbered old
      (N + (Move.registered? (m, (f.apply thread m).1)).isSome.toNat) := by
  cases f.sends_apply thread m with
  | fades hm hw hr hf =>
    rw [hr]
    cases hf with
    | calm hsig => exact h.same (Exchange.callbacks_signals hsig)
    | down hx hsig =>
      have hcleared : (f.apply thread m).2.exchange.callbacks = f.exchange.callbacks.clear :=
        congrArg Exchange.Signals.callbacks hsig
      refine h.kept (by rw [hcleared]; rfl) fun e he => ?_
      rw [hcleared] at he
      cases he
  | rings hm hr hsig | waited _ _ _ _ hr _ _ hsig | disturbed _ _ hr _ _ hsig =>
    rw [hr]
    exact h.same (congrArg Exchange.Signals.callbacks hsig)
  | registered c hm hr hsig =>
    rw [hr] at hN ⊢
    exact h.registered hN (congrArg Exchange.Signals.callbacks hsig)
  | unregistered s hm hr hsig =>
    have hfewer : (f.apply thread m).2.exchange.callbacks = (f.exchange.callbacks.unregister s).2 :=
      congrArg Exchange.Signals.callbacks hsig
    rw [hr]
    refine h.kept (by rw [hfewer]; rfl) fun e he => ?_
    rw [hfewer] at he
    exact List.mem_of_mem_filter he

theorem run (h : f.Numbered old N)
    (hN : N + registrations (history thread ms f) + 1 < UInt64.size) :
    (Floor.run thread ms f).Numbered old (N + registrations (history thread ms f)) := by
  induction ms generalizing f N with
  | nil => exact h
  | cons m ms ih =>
    rw [history, registrations_cons, ← Nat.add_assoc] at hN ⊢
    exact ih (h.apply (by omega)) hN

theorem unresolved (h : f.Numbered old N) (ht : t.raw.toNat ≤ old) :
    f.exchange.callbacks.resolve? t = none := by
  rw [Callbacks.resolve?, List.lookup_eq_none_iff]
  intro e he
  rw [bne_iff_ne]
  rintro rfl
  exact Nat.not_lt_of_le ht (h.later e he)

end Numbered

theorem token_of_registered? (thread : Option String)
    (h : Move.registered? (m, (f.apply thread m).1) = some (c, t)) :
    t = f.exchange.callbacks.next := by
  cases f.sends_apply thread m with
  | registered c' hm hr hsig =>
    rw [hr] at h
    cases h
    rfl
  | fades _ _ hr | rings _ hr | waited _ _ _ _ hr | unregistered _ _ hr | disturbed _ _ hr =>
    rw [hr] at h
    cases h

theorem token_le (h : f.Numbered old N)
    (hN : N + registrations (history thread ms f) + 1 < UInt64.size) {e : Move α ε × Answer α ε}
    (he : e ∈ history thread ms f) (ht : Move.registered? e = some (c, t)) :
    t.raw.toNat ≤ N + registrations (history thread ms f) := by
  induction ms generalizing f N with
  | nil => cases he
  | cons m ms ih =>
    rw [history, registrations_cons, ← Nat.add_assoc] at hN ⊢
    rcases List.mem_cons.1 he with rfl | he
    · rw [token_of_registered? thread ht, h.next, ht]
      exact Nat.le_add_right _ _
    · exact ih (h.apply (by omega)) hN he

theorem numbered_start {s : Settings} {x : Exchange} (hx : Exchange.create s = .ok x) :
    (start x : Floor α ε).Numbered 0 0 := by
  obtain ⟨-, rfl⟩ := Exchange.create_eq hx
  exact ⟨rfl, Nat.le_refl 0, fun e he => by cases he⟩

/-- The move that shuts the exchange down registers nothing, and whatever is there afterwards is
registered later. -/
theorem Numbered.shut (h : f.Numbered old N) (thread : Option String)
    (hx : f.exchange.closed = false) (hy : (f.apply thread m).2.exchange.closed = true) :
    Move.registered? (m, (f.apply thread m).1) = none ∧ (f.apply thread m).2.Numbered N N := by
  have hsame : ∀ {s : Exchange.Signals}, (f.apply thread m).2.exchange.signals = s →
      s.closed = f.exchange.closed → False := by
    intro s hs hclosed
    have hstill : (f.apply thread m).2.exchange.closed = s.closed :=
      congrArg Exchange.Signals.closed hs
    rw [hy, hclosed, hx] at hstill
    cases hstill
  cases f.sends_apply thread m with
  | fades hm hw hr hf =>
    cases hf with
    | calm hsig => exact (hsame hsig rfl).elim
    | down _ hsig =>
      have hcleared : (f.apply thread m).2.exchange.callbacks = f.exchange.callbacks.clear :=
        congrArg Exchange.Signals.callbacks hsig
      refine ⟨hr, ?_, Nat.le_refl N, fun e he => ?_⟩
      · rw [hcleared]
        exact h.next
      · rw [hcleared] at he
        cases he
  | rings _ _ hsig | waited _ _ _ _ _ _ _ hsig | registered _ _ _ hsig | unregistered _ _ _ hsig
  | disturbed _ _ _ _ _ hsig => exact (hsame hsig rfl).elim

end Floor

end CallExchange
