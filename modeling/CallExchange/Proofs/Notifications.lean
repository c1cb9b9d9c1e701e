import CallExchange.Proofs.Wakeups

set_option autoImplicit false

/-!
# What a wait finds

A wait reports whether the notifier was notified since the wait before. The counter behind a
descriptor stops when it is full and the other kind goes around, so the count itself is only known
as long as it fits in a word.
-/

namespace CallExchange

variable {α ε : Type}

namespace Floor

variable {f : Floor α ε} {m : Move α ε} {ms : List (Move α ε)} {N : Nat} {thread : Option String}

def NoWait (thread : Option String) (ms : List (Move α ε)) (f : Floor α ε) : Prop :=
  ∀ e ∈ history thread ms f, Move.waits e = false

/-- Whether one of these moves notified, and no wait came after it. -/
def Unheard (thread : Option String) (ms : List (Move α ε)) (f : Floor α ε) : Prop :=
  ∃ before m after, ms = before ++ m :: after ∧ (run thread before f).fires thread m = true ∧
    NoWait thread after ((run thread before f).apply thread m).2

theorem noWait_cons : NoWait thread (m :: ms) f ↔
    Move.waits (m, (f.apply thread m).1) = false ∧ NoWait thread ms (f.apply thread m).2 := by
  rw [NoWait, history, List.forall_mem_cons]
  rfl

theorem unheard_cons : Unheard thread (m :: ms) f ↔
    f.fires thread m = true ∧ NoWait thread ms (f.apply thread m).2 ∨
      Unheard thread ms (f.apply thread m).2 := by
  constructor
  · rintro ⟨before, m', after, heq, hfires, hquiet⟩
    cases before with
    | nil =>
      cases heq
      exact .inl ⟨hfires, hquiet⟩
    | cons m₀ before =>
      cases heq
      exact .inr ⟨before, m', after, rfl, hfires, hquiet⟩
  · rintro (⟨hfires, hquiet⟩ | ⟨before, m', after, rfl, hfires, hquiet⟩)
    · exact ⟨[], m, ms, rfl, hfires, hquiet⟩
    · exact ⟨m :: before, m', after, rfl, hfires, hquiet⟩

theorem waits_of_fires (h : f.fires thread m = true) :
    Move.waits (m, (f.apply thread m).1) = false := by
  by_contra hw
  rw [Bool.not_eq_false] at hw
  obtain ⟨b, n, -, hx⟩ := apply_waits hw
  have hclosed : f.shutsFirst thread m = false := shutsFirst_of_closed (by rw [hx])
  obtain ⟨t, b', rfl, ha⟩ := Move.eq_of_waits hw
  rw [fires, hclosed] at h
  cases h

theorem unheard_ne_zero (thread : Option String) (ms : List (Move α ε)) (f : Floor α ε) (N : Nat) :
    unheard thread ms f N ≠ 0 ↔ N ≠ 0 ∧ NoWait thread ms f ∨ Unheard thread ms f := by
  induction ms generalizing f N with
  | nil =>
    have hnone : ¬ Unheard thread [] f := by
      rintro ⟨before, m, after, heq, -⟩
      simp at heq
    have hquiet : NoWait thread [] f := fun e he => absurd he List.not_mem_nil
    simp [unheard, hnone, hquiet]
  | cons m ms ih =>
    rw [unheard, ih, noWait_cons, unheard_cons, unheardBy]
    cases hw : Move.waits (m, (f.apply thread m).1) with
    | true =>
      have hfires : f.fires thread m ≠ true := fun h => by
        rw [waits_of_fires h] at hw
        cases hw
      simp [hfires]
    | false =>
      cases f.fires thread m with
      | false => simp
      | true => simpa using fun _ h => .inl h

theorem wait_eq (hok : f.exchange.notifier.fails = false) : f.exchange.notifier.wait =
    .ok (decide (f.exchange.notifier.count ≠ 0), { f.exchange.notifier with count := 0 }) := by
  rw [Notifier.wait_eq, hok, if_neg Bool.false_ne_true]

theorem pump_of_wait (thread : Option String) (t : Span) (bound : Nat)
    (hd : f.session.dispatcher = true) (hok : f.exchange.notifier.fails = false) :
    f.session.stage.pump bound =
      (f.apply thread (.step (.waitForDelivery t) rfl)).2.session.stage.drain bound := by
  rw [apply_waitForDelivery thread t hd (wait_eq hok), Stage.pump, Exchange.waitForDelivery,
    show f.session.stage.exchange.notifier.wait = _ from wait_eq hok]
  rfl

/-- What a wait finds, as long as the notifier has not failed and fewer than a word's worth of
notifications were made since the last one: whether, since the last wait, anything notified, that
is, a delivery was accepted, the exchange was shut down for the first time, or the notifier was
notified by hand. The wait takes all of them, so that the next one finds nothing, and a pump is a
wait and then a drain. -/
theorem run_wait_finds {s : Settings} {x : Exchange} (hx : Exchange.create s = .ok x)
    (thread : Option String) (ms : List (Move α ε)) (t : Span)
    (hd : (run thread ms (start x)).session.dispatcher = true)
    (hok : (run thread ms (start x)).exchange.notifier.fails = false)
    (hroom : unheard thread ms (start x) 0 < UInt64.size) :
    let f := run thread ms (start x)
    let w := f.apply thread (.step (.waitForDelivery t) rfl)
    (∃ b, w.1 = .reply (.flag b) ∧ (b = true ↔ Unheard thread ms (start x))) ∧
      w.2.exchange = { f.exchange with notifier := { f.exchange.notifier with count := 0 } } ∧
      (∀ t', (w.2.apply thread (.step (.waitForDelivery t') rfl)).1 = .reply (.flag false)) ∧
      ∀ bound, f.session.stage.pump bound = w.2.session.stage.drain bound := by
  intro f w
  have hw : w = _ := apply_waitForDelivery thread t hd (wait_eq hok)
  have hheard : f.exchange.notifier.Hears (unheard thread ms (start x) 0) :=
    hears_run (hears_start hx) thread ms
  have hfound : f.exchange.notifier.count ≠ 0 ↔ Unheard thread ms (start x) := by
    rw [ne_eq, hheard.count_eq_zero hok fun _ => hroom, ← ne_eq, unheard_ne_zero]
    simp
  refine ⟨⟨_, congrArg Prod.fst hw, ?_⟩, by rw [hw]; rfl, fun t' => ?_, fun bound => ?_⟩
  · rw [decide_eq_true_iff]
    exact hfound
  · have hdispatcher : w.2.session.dispatcher = true := by
      rw [hw]
      exact hd
    have hnext : w.2.exchange.notifier.fails = false := by
      rw [hw]
      exact hok
    rw [apply_waitForDelivery thread t' hdispatcher (wait_eq hnext), hw]
    rfl
  · exact pump_of_wait thread t bound hd hok

/-- After a wait, a delivery is dropped and the exchange is shut down twice. -/
theorem run_wait_finds_shutdown : ∃ x, Exchange.create .standard = .ok x ∧
    let ms : List (Move Unit Unit) := [.step (.openBroadcast "task") rfl, .deliver ⟨9⟩ .null,
      .deliver ⟨1⟩ .null, .step (.waitForDelivery .zero) rfl, .deliver ⟨9⟩ .null,
      .step (.act .shutdown) rfl, .step (.act .shutdown) rfl]
    let f := run none ms (start x)
    let w := f.apply none (.step (.waitForDelivery .zero) rfl)
    f.session.dispatcher = true ∧ f.exchange.notifier.fails = false ∧
      unheard none ms (start x) 0 = 1 ∧ w.1 = .reply (.flag true) ∧
      (w.2.apply none (.step (.waitForDelivery .zero) rfl)).1 = .reply (.flag false) := by
  obtain ⟨x, hx⟩ : ∃ x, Exchange.create .standard = .ok x := ⟨_, rfl⟩
  refine ⟨x, hx, ?_⟩
  intro ms f w
  have hone : unheard none ms (start x) 0 = 1 := by
    cases hx
    rfl
  have hd : f.session.dispatcher = true := by
    cases hx
    rfl
  have hok : f.exchange.notifier.fails = false := by
    cases hx
    rfl
  obtain ⟨⟨b, hb, hfound⟩, -, hnext, -⟩ :=
    run_wait_finds hx none ms .zero hd hok (by rw [hone]; decide)
  have hunheard : Unheard none ms (start x) := by
    have hpos := (unheard_ne_zero none ms (start x) 0).1 (by rw [hone]; decide)
    exact hpos.resolve_left fun h => h.1 rfl
  rw [hfound.2 hunheard] at hb
  exact ⟨hd, hok, hone, hb, hnext .zero⟩

/-- Nothing is posted and nothing is shut down, but the notifier is notified by hand, and the wait
says that there was something. -/
theorem wait_finds_notification : ∃ x, Exchange.create .standard = .ok x ∧
    let ms : List (Move Unit Unit) := [.step (.act .notify) rfl]
    let f := run none ms (start x)
    (∀ m ∈ ms, m.post? = none) ∧ f.exchange.closed = false ∧
      (f.apply none (.step (.waitForDelivery .zero) rfl)).1 = .reply (.flag true) := by
  refine ⟨_, rfl, ?_⟩
  intro ms f
  exact ⟨by simp [ms, Move.post?], rfl, rfl⟩

end Floor

end CallExchange
