import CallExchange.Proofs.Floor.Signals
import CallExchange.Proofs.Notifiers

set_option autoImplicit false

/-!
# Notifications since the last wait

Accepted deliveries notify, and so does the shutdown of an exchange that was not shut down yet, and
whoever has the notifier may notify it by hand. Nothing else does.
-/

namespace CallExchange

variable {α ε : Type}

namespace Move

/-- Whether a move notified the notifier itself, by a notification or by filling its counter. -/
def prompts : Move α ε × Answer α ε → Bool
  | (.step (.act .notify) _, .reply .done) => true
  | (.step .saturateNotifier _, .reply (.flag true)) => true
  | _ => false

def delivers (e : Move α ε × Answer α ε) : Bool := e.1.post?.isSome && e.2.accepted

theorem rings_eq (e : Move α ε × Answer α ε) : rings e = (delivers e || notifies e) := rfl

theorem eq_of_waits {m : Move α ε} {a : Answer α ε} (h : waits (m, a) = true) :
    ∃ t b, m = .step (.waitForDelivery t) rfl ∧ a = .reply (.flag b) := by
  unfold waits at h
  split at h
  · rename_i heq
    cases heq
    exact ⟨_, _, rfl, rfl⟩
  · cases h

theorem prompts_eq {m : Move α ε} (hm : m ≠ .step .saturateNotifier rfl) (a : Answer α ε) :
    prompts (m, a) = notifies (m, a) := by
  unfold prompts
  split
  · rename_i heq
    cases heq
    rfl
  · rename_i heq
    cases heq
    exact absurd rfl hm
  · rename_i hnotify _
    unfold notifies
    split
    · rename_i heq
      cases heq
      exact absurd rfl (hnotify _)
    · rfl

end Move

namespace Floor

variable {f : Floor α ε} {m : Move α ε} {ms : List (Move α ε)} {N : Nat} {thread : Option String}

def shutsFirst (thread : Option String) (f : Floor α ε) (m : Move α ε) : Bool :=
  !f.exchange.closed && (f.apply thread m).2.exchange.closed

/-- Whether a move notified: by a delivery that was accepted, by the first shutdown, or by hand. -/
def fires (thread : Option String) (f : Floor α ε) (m : Move α ε) : Bool :=
  Move.delivers (m, (f.apply thread m).1) || f.shutsFirst thread m ||
    Move.prompts (m, (f.apply thread m).1)

def unheardBy (thread : Option String) (f : Floor α ε) (m : Move α ε) (N : Nat) : Nat :=
  if Move.waits (m, (f.apply thread m).1) then 0 else N + (f.fires thread m).toNat

/-- How often was notified since the last wait, if `N` times before these moves. -/
def unheard (thread : Option String) : List (Move α ε) → Floor α ε → Nat → Nat
  | [], _, N => N
  | m :: ms, f, N => unheard thread ms (f.apply thread m).2 (f.unheardBy thread m N)

theorem apply_waitForDelivery (thread : Option String) (t : Span) {b : Bool} {n : Notifier}
    (hd : f.session.dispatcher = true) (hwait : f.exchange.notifier.wait = .ok (b, n)) :
    f.apply thread (.step (.waitForDelivery t) rfl) =
      (.reply (.flag b), f.onStage (f.session.stage.put { f.exchange with notifier := n })) := by
  change f.turn (f.session.withDispatcher _) = _
  rw [Session.withDispatcher, if_pos hd, Exchange.waitForDelivery,
    show f.session.exchange.notifier.wait = _ from hwait]
  rfl

theorem apply_waits (h : Move.waits (m, (f.apply thread m).1) = true) :
    ∃ b n, f.exchange.notifier.wait = .ok (b, n) ∧
      (f.apply thread m).2.exchange = { f.exchange with notifier := n } := by
  obtain ⟨t, b, rfl, ha⟩ := Move.eq_of_waits h
  change (f.turn (f.session.withDispatcher _)).1 = .reply (.flag b) at ha
  cases hd : f.session.dispatcher with
  | false =>
    rw [Session.withDispatcher, hd] at ha
    cases ha
  | true =>
    cases hwait : f.exchange.notifier.wait with
    | error e =>
      rw [Session.withDispatcher, if_pos hd, Exchange.waitForDelivery,
        show f.session.exchange.notifier.wait = .error e from hwait] at ha
      cases ha
    | ok r =>
      rw [apply_waitForDelivery thread t hd hwait]
      exact ⟨r.1, r.2, rfl, rfl⟩

theorem withNotifier_eq (f : Floor α ε) (g : Notifier → Bool × Notifier) :
    (f.turn (f.session.withNotifier g)).1 = .reply .exchangeGone ∧
        (f.turn (f.session.withNotifier g)).2 = f ∨
      (f.turn (f.session.withNotifier g)).1 = .reply (.flag (g f.exchange.notifier).1) ∧
        (f.turn (f.session.withNotifier g)).2.exchange =
          { f.exchange with notifier := (g f.exchange.notifier).2 } := by
  unfold Session.withNotifier
  dsimp only
  split
  · exact .inl ⟨rfl, rfl⟩
  · exact .inr ⟨rfl, rfl⟩

theorem fires_eq (hm : m ≠ .step .saturateNotifier rfl) :
    f.fires thread m = (Move.rings (m, (f.apply thread m).1) || f.shutsFirst thread m) := by
  rw [fires, Move.prompts_eq hm, Move.rings_eq, Bool.or_right_comm]

theorem fires_of_rings (h : Move.rings (m, (f.apply thread m).1) = true) :
    f.fires thread m = true := by
  by_cases hm : m = .step .saturateNotifier rfl
  · subst hm
    cases h
  · rw [fires_eq hm, h, Bool.true_or]

theorem shutsFirst_of_closed
    (h : (f.apply thread m).2.exchange.closed = f.exchange.closed) :
    f.shutsFirst thread m = false := by
  rw [shutsFirst, h]
  cases f.exchange.closed <;> rfl

theorem fires_eq_prompts (hpost : m.post? = none)
    (h : (f.apply thread m).2.exchange.closed = f.exchange.closed) :
    f.fires thread m = Move.prompts (m, (f.apply thread m).1) := by
  rw [fires, shutsFirst_of_closed h, Bool.or_false, Move.delivers, hpost]
  rfl

/-- A move that takes no notification adds those that it makes. -/
theorem hears_quiet (h : f.exchange.notifier.Hears N)
    (hw : Move.waits (m, (f.apply thread m).1) = false)
    (hbreak : m ≠ .step .breakNotifier rfl) (hfill : m ≠ .step .saturateNotifier rfl) :
    (f.apply thread m).2.exchange.notifier.Hears (N + (f.fires thread m).toNat) := by
  rw [fires_eq hfill]
  have hkept : Move.rings (m, (f.apply thread m).1) = false →
      (f.apply thread m).2.exchange.closed = f.exchange.closed →
      (f.apply thread m).2.exchange.notifier = f.exchange.notifier →
        (f.apply thread m).2.exchange.notifier.Hears
          (N + (Move.rings (m, (f.apply thread m).1) || f.shutsFirst thread m).toNat) := by
    intro hrings hclosed hn
    rw [hrings, shutsFirst_of_closed hclosed, hn]
    exact h
  cases f.sends_apply thread m with
  | fades hrings _ _ hf =>
    cases hf with
    | calm hsig =>
      exact hkept hrings (Exchange.closed_signals hsig) (Exchange.notifier_signals hsig)
    | down hx hsig =>
      have hclosed : (f.apply thread m).2.exchange.closed = true :=
        congrArg Exchange.Signals.closed hsig
      have hn : (f.apply thread m).2.exchange.notifier = f.exchange.notifier.notified.2 :=
        congrArg Exchange.Signals.notifier hsig
      rw [hrings, shutsFirst, hx, hclosed, hn]
      exact h.notified
  | rings hrings _ hsig =>
    have hn : (f.apply thread m).2.exchange.notifier = f.exchange.notifier.notified.2 :=
      congrArg Exchange.Signals.notifier hsig
    rw [hrings, Bool.true_or, hn]
    exact h.notified
  | waited _ _ _ hwaits =>
    rw [hw] at hwaits
    cases hwaits
  | registered _ hrings _ hsig | unregistered _ hrings _ hsig =>
    exact hkept hrings (congrArg Exchange.Signals.closed hsig)
      (congrArg Exchange.Signals.notifier hsig)
  | disturbed hd =>
    unfold Move.disturbs at hd
    split at hd
    · exact absurd rfl hbreak
    · exact absurd rfl hfill
    · cases hd

theorem hears_break (h : f.exchange.notifier.Hears N) (thread : Option String) :
    let m : Move α ε := .step .breakNotifier rfl
    (f.apply thread m).2.exchange.notifier.Hears (N + (f.fires thread m).toNat) := by
  intro m
  rcases f.withNotifier_eq Notifier.breakDescriptor with ⟨-, hx⟩ | ⟨-, hx⟩
  · change (f.apply thread m).2 = f at hx
    rw [fires_eq_prompts rfl (by rw [hx]), hx]
    exact h
  · change (f.apply thread m).2.exchange = _ at hx
    rw [fires_eq_prompts rfl (by rw [hx]), hx]
    exact h.broken

theorem hears_fill (h : f.exchange.notifier.Hears N) (thread : Option String) :
    let m : Move α ε := .step .saturateNotifier rfl
    (f.apply thread m).2.exchange.notifier.Hears (N + (f.fires thread m).toNat) := by
  intro m
  rcases f.withNotifier_eq Notifier.saturate with ⟨ha, hx⟩ | ⟨ha, hx⟩
  · change (f.apply thread m).1 = _ at ha
    change (f.apply thread m).2 = f at hx
    rw [fires_eq_prompts rfl (by rw [hx]), ha, hx]
    exact h
  · change (f.apply thread m).1 = _ at ha
    change (f.apply thread m).2.exchange = _ at hx
    rw [fires_eq_prompts rfl (by rw [hx]), ha, hx]
    have hflag : Move.prompts (m, (.reply (.flag f.exchange.notifier.saturate.1) : Answer α ε)) =
        f.exchange.notifier.saturate.1 := by
      cases f.exchange.notifier.saturate.1 <;> rfl
    rw [hflag]
    exact h.saturated

theorem hears_apply (h : f.exchange.notifier.Hears N) (thread : Option String) (m : Move α ε) :
    (f.apply thread m).2.exchange.notifier.Hears (f.unheardBy thread m N) := by
  cases hw : Move.waits (m, (f.apply thread m).1) with
  | true =>
    obtain ⟨b, n, hwait, hx⟩ := apply_waits hw
    obtain ⟨-, rfl, -⟩ := Notifier.wait_eq_ok hwait
    rw [unheardBy, hw, if_pos rfl, hx]
    exact f.exchange.notifier.hears_zero
  | false =>
    rw [unheardBy, hw, if_neg Bool.false_ne_true]
    by_cases hbreak : m = .step .breakNotifier rfl
    · subst hbreak
      exact hears_break h thread
    · by_cases hfill : m = .step .saturateNotifier rfl
      · subst hfill
        exact hears_fill h thread
      · exact hears_quiet h hw hbreak hfill

theorem hears_run (h : f.exchange.notifier.Hears N) (thread : Option String)
    (ms : List (Move α ε)) :
    (run thread ms f).exchange.notifier.Hears (unheard thread ms f N) := by
  induction ms generalizing f N with
  | nil => exact h
  | cons m ms ih => exact ih (hears_apply h thread m)

theorem hears_start {s : Settings} {x : Exchange} (hx : Exchange.create s = .ok x) :
    (start x : Floor α ε).exchange.notifier.Hears 0 := by
  obtain ⟨-, rfl⟩ := Exchange.create_eq hx
  exact (Notifier.ofKind s.notifier).hears_zero

end Floor

end CallExchange
