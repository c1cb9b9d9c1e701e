import CallExchange.Proofs.Representation

set_option autoImplicit false

/-!
# Routing of deliveries

Where a posted value goes in any reachable state, what it does there and what it leaves alone, and
that the counts of deliveries add up to the posts that were made.
-/

namespace CallExchange

variable {α ε : Type}

namespace Exchange

variable {x y : Exchange} {p : PortId} {v : Value}

def Delivery.event : Delivery → Counters.Event
  | .completed => .completed
  | .queued => .queued
  | .dropped => .dropped

/-- What a delivery of `v` to `p` does to the tables, the inboxes and the slots. -/
def Effective (x : Exchange) (p : PortId) (v : Value) (y : Exchange) : Delivery → Prop
  | .completed => ∃ k, x.ticket? p = some k ∧
      y.pending.waiting = x.pending.waiting.filter (fun e => !(e.1 == p)) ∧
      y.pending.slots = x.pending.slots.set k (.ready v) ∧
      (y.pending.slot k = .ready v) ∧ y.ports = x.ports ∧ y.inboxes = x.inboxes
  | .queued => y.inbox p = ⟨(x.inbox p).queue ++ [v], false⟩ ∧
      (∀ q, q ≠ p → y.inbox q = x.inbox q) ∧ y.ports = x.ports ∧ y.pending = x.pending
  | .dropped => y.pending = x.pending ∧ y.ports = x.ports ∧ y.inboxes = x.inboxes

structure Routes (x : Exchange) (p : PortId) (v : Value) : Prop where
  completed_iff : (x.post p v).1 = .completed ↔ p ∈ x.pendingPorts
  queued_iff : (x.post p v).1 = .queued ↔
    p ≠ reversePort ∧ p ∈ x.broadcastPorts ∨ p = reversePort ∧ x.closed = false
  open_iff : x.isOpen p = true ↔ (x.post p v).1 ≠ .dropped
  counters : (x.post p v).2.counters = x.counters.record (Delivery.event (x.post p v).1)
  effective : x.Effective p v (x.post p v).2 (x.post p v).1
  others_open : ∀ q, q ≠ p → (x.post p v).2.isOpen q = x.isOpen q
  others_name : ∀ q, (x.post p v).2.portName? q = x.portName? q
  others_inbox : ∀ q, q ≠ p → (x.post p v).2.inbox q = x.inbox q
  others_slot : ∀ k, x.ticket? p ≠ some k → (x.post p v).2.pending.slot k = x.pending.slot k

theorem counters_ring (x : Exchange) : x.ring.counters = x.counters := by
  unfold ring
  split <;> rfl

theorem counters_drop (x : Exchange) (p : PortId) (why : DropReason) :
    (x.drop p why).counters = x.counters.record .dropped := by
  unfold drop
  dsimp only
  split <;> rfl

theorem Posted.counters_eq {d : Delivery} (hp : Posted x p v d y) :
    y.counters = x.counters.record (Delivery.event d) := by
  cases hp with
  | completed w r hx hr => exact counters_ring _
  | queued hx ht hn hb => exact counters_ring _
  | dropped why hd => exact counters_drop x p why

theorem Posted.ports_eq {d : Delivery} (hp : Posted x p v d y) : y.ports = x.ports := by
  cases hp with
  | completed w r hx hr => exact (ports_congr (core_ring _)).trans rfl
  | queued hx ht hn hb => exact (ports_congr (core_ring _)).trans rfl
  | dropped why hd => exact (ports_congr (core_drop x p why)).trans rfl

theorem complete_of_unsettled {s : OneShot Value} (hs : s.isSettled = false) (v : Value) :
    (OneShot.complete v s).1 = .ready v := by
  cases s with
  | pending w => rfl
  | _ => cases hs

theorem Posted.effective (h : x.Consistent) {d : Delivery} (hp : Posted x p v d y) :
    x.Effective p v y d := by
  have hports := hp.ports_eq
  cases hp with
  | completed w r hx hr =>
    obtain ⟨k, hk, -, hreq⟩ := Pending.retire?_eq_some hr
    have hready := complete_of_unsettled (h.pending.unsettled hk) v
    have hslot := Pending.slot_retire h.pending hr hk k
    rw [if_pos rfl] at hslot
    change r.slot k = (OneShot.complete v (x.pending.slot k)).1 at hslot
    rw [hready] at hslot
    rw [hready] at hreq
    refine ⟨k, hk, ?_, ?_, ?_, hports, ?_⟩
    · rw [pending_congr (core_ring _)]
      change r.waiting = _
      rw [hreq]
    · rw [pending_congr (core_ring _)]
      change r.slots = _
      rw [hreq]
      rfl
    · rw [pending_congr (core_ring _)]
      exact hslot
    · exact (inboxes_congr (core_ring _)).trans rfl
  | queued hx ht hn hb =>
    have hpush : ((x.inbox p).push v).2 = ⟨(x.inbox p).queue ++ [v], false⟩ := by
      rw [Inbox.push, hb]
      rfl
    refine ⟨?_, ?_, hports, (pending_congr (core_ring _)).trans rfl⟩
    · rw [inbox_congr (core_ring _), ← hpush]
      refine (x.inbox_setInbox p p _).trans (if_pos ⟨rfl, ?_⟩)
      exact x.hasInbox_of_open p hb
    · intro q hq
      rw [inbox_congr (core_ring _)]
      exact x.inbox_setInbox_ne _ hq
  | dropped why hd =>
    exact ⟨(pending_congr (core_drop x p why)).trans rfl, hports,
      (inboxes_congr (core_drop x p why)).trans rfl⟩

theorem Posted.delivery_eq (h : x.Consistent) {d : Delivery} (hp : Posted x p v d y) :
    d = if (x.ticket? p).isSome then .completed
      else if (x.portName? p).isSome then .queued else .dropped := by
  cases hp with
  | completed w r hx hr =>
    obtain ⟨k, hk, -⟩ := Pending.retire?_eq_some hr
    rw [ticket?, hk]
    rfl
  | queued hx ht hn hb =>
    rw [ht, hn]
    rfl
  | dropped why hd =>
    have hnone : x.ticket? p = none ∧ x.portName? p = none := by
      rcases hd with hc | ⟨ht, hn | hb⟩
      · exact ⟨h.closed_tickets hc p, h.closed_names hc p⟩
      · exact ⟨ht, by simpa using hn⟩
      · have ho := h.open_iff p
        rw [hb] at ho
        exact ⟨ht, by simpa using ho⟩
    rw [hnone.1, hnone.2]
    rfl

theorem Consistent.post_fst (h : x.Consistent) (p : PortId) (v : Value) :
    (x.post p v).1 =
      if (x.ticket? p).isSome then .completed
      else if (x.portName? p).isSome then .queued else .dropped :=
  (x.post_posted p v).delivery_eq h

theorem Consistent.queued_iff (h : x.Consistent) (p : PortId) (v : Value) :
    (x.post p v).1 = .queued ↔
      p ≠ reversePort ∧ p ∈ x.broadcastPorts ∨ p = reversePort ∧ x.closed = false := by
  rw [h.post_fst p v, mem_broadcastPorts]
  by_cases hp : p = reversePort
  · subst hp
    rw [h.reverse_not_pending, h.reverse_open]
    cases x.closed <;> simp
  · have hpend := h.name_of_pending (p := p)
    simp only [hp, not_false_eq_true, true_and, ne_eq, false_and, or_false]
    cases ht : (x.ticket? p).isSome with
    | true =>
      rw [hpend ht]
      simp
    | false => cases (x.portName? p).isSome <;> simp

theorem Consistent.routes (h : x.Consistent) (p : PortId) (v : Value) : x.Routes p v := by
  have hposted := x.post_posted p v
  have hsame : ∀ q, q ≠ p → SamePort q x (x.post p v).2 := fun q hq => hposted.samePort hq.symm
  exact
    { completed_iff := by
        rw [h.post_fst p v, mem_pendingPorts]
        cases (x.ticket? p).isSome <;> cases (x.portName? p).isSome <;> simp
      queued_iff := h.queued_iff p v
      open_iff := by
        rw [h.post_fst p v, isOpen_eq]
        cases (x.ticket? p).isSome <;> cases (x.portName? p).isSome <;> simp
      counters := hposted.counters_eq
      effective := hposted.effective h
      others_open q hq := by
        rw [isOpen_eq, isOpen_eq, (hsame q hq).ticket, (hsame q hq).name]
      others_name q := by
        rw [portName?, portName?, hposted.ports_eq]
      others_inbox q hq := (hsame q hq).inbox
      others_slot k hk := hposted.slot_eq hk }

end Exchange

namespace Floor

variable {f : Floor α ε} {m : Move α ε} {thread : Option String} {n : Nat}

def livePosts (thread : Option String) : List (Move α ε) → Floor α ε → Nat
  | [], _ => 0
  | m :: ms, f => (f.livePost m).toNat + livePosts thread ms (f.apply thread m).2

theorem tally_apply (hs : f.Sound (m.opensPort.toNat + n)) :
    (f.apply thread m).2.exchange.tally = f.exchange.tally + UInt64.ofNat (f.livePost m).toNat := by
  obtain ⟨ops, he⟩ := hs.effect thread m
  rw [← he.posts]
  exact he.runs.tally_eq hs.consistent (he.fit hs)

theorem tally_run {ms : List (Move α ε)} (hs : f.Sound (ms.countP Move.opensPort + n)) :
    (run thread ms f).exchange.tally = f.exchange.tally + UInt64.ofNat (livePosts thread ms f) := by
  induction ms generalizing f with
  | nil => exact (UInt64.add_zero _).symm
  | cons m ms ih =>
    rw [countP_opens_cons] at hs
    have htail := ih (hs.apply thread)
    change (run thread ms (f.apply thread m).2).exchange.tally = _
    rw [htail, tally_apply hs, livePosts, UInt64.ofNat_add]
    ac_rfl

/-- In every state of every run that does not use up the numbers for ports, a delivery to any number
is routed by the tables, and the counts of deliveries add up to the posts made so far, in words of
64 bits. -/
theorem run_routes {s : Settings} {x : Exchange} (hx : Exchange.create s = .ok x)
    (thread : Option String) (ms : List (Move α ε)) (hfew : ms.countP Move.opensPort + 1 < PortId.supply) :
    (∀ p v, (run thread ms (start x)).exchange.Routes p v) ∧
      (run thread ms (start x)).exchange.tally = UInt64.ofNat (livePosts thread ms (start x)) := by
  have hs : (start x : Floor α ε).Sound (ms.countP Move.opensPort + 0) := sound_start hx hfew
  refine ⟨fun p v => (hs.run thread).consistent.routes p v, ?_⟩
  rw [tally_run hs]
  obtain ⟨-, rfl⟩ := Exchange.create_eq hx
  exact UInt64.zero_add _

/-- A delivery that completes, one that is queued and one that is dropped. -/
theorem run_routes_of_each_kind : ∃ x, Exchange.create .standard = .ok x ∧
    let ms : List (Move Unit Unit) :=
      [.step .openSingle rfl, .step (.openBroadcast "task") rfl, .deliver ⟨1⟩ .null,
        .deliver ⟨2⟩ .null, .deliver ⟨3⟩ .null]
    let y := (run none ms (start x)).exchange
    ms.countP Move.opensPort + 1 < PortId.supply ∧ (∀ p v, y.Routes p v) ∧
      y.tally = UInt64.ofNat (livePosts none ms (start x)) ∧
      y.counters.completed = 1 ∧ y.counters.queued = 1 ∧ y.counters.dropped = 1 := by
  obtain ⟨x, hx⟩ : ∃ x, Exchange.create .standard = .ok x := ⟨_, rfl⟩
  refine ⟨x, hx, ?_⟩
  intro ms y
  have hfew : ms.countP Move.opensPort + 1 < PortId.supply := by decide
  obtain ⟨hroutes, htally⟩ := run_routes hx none ms hfew
  cases hx
  exact ⟨hfew, hroutes, htally, rfl, rfl, rfl⟩

end Floor

end CallExchange
