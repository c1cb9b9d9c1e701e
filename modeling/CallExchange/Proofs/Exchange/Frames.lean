import CallExchange.Proofs.Exchange.Operations

set_option autoImplicit false

/-!
# What operations leave alone

A port sees nothing of an operation on another port, and a slot nothing of one that is neither on
its port nor reads it. The exception is the last owner's release, which is a shutdown.
-/

namespace CallExchange.Exchange

variable {x y z : Exchange} {p : PortId} {k : Ticket}

structure SamePort (p : PortId) (x y : Exchange) : Prop where
  ticket : y.ticket? p = x.ticket? p
  name : y.portName? p = x.portName? p
  inbox : y.inbox p = x.inbox p

theorem SamePort.of_core (h : y.core = x.core) : SamePort p x y :=
  ⟨ticket?_congr h p, portName?_congr h p, inbox_congr h p⟩

theorem SamePort.trans (h : SamePort p x y) (h' : SamePort p y z) : SamePort p x z :=
  ⟨h'.ticket.trans h.ticket, h'.name.trans h.name, h'.inbox.trans h.inbox⟩

theorem SamePort.of_retired {q : PortId} (h : Retired q x y) (hq : q ≠ p) : SamePort p x y :=
  ⟨by rw [h.ticket, if_neg hq.symm], by rw [h.name, if_neg hq.symm], h.inbox_ne p hq.symm⟩

theorem Issued.ne_next (hp : x.Issued p) : p ≠ x.nextPort := PortId.ne_of_toInt_lt hp.2

theorem OpenedSingle.samePort {a : Except Fault (PortId × Ticket)} (ho : OpenedSingle x a y)
    (hp : x.Issued p) : SamePort p x y := by
  cases ho with
  | closed hx => exact .of_core rfl
  | refused f hx hreg => exact ⟨rfl, rfl, rfl⟩
  | opened k r hx hreg =>
    refine ⟨?_, rfl, rfl⟩
    rw [ticket?, Pending.ticket?_register hreg, if_neg hp.ne_next]
    rfl

theorem OpenedBroadcast.samePort (h : x.Consistent) {task : String} {a : Except Fault Broadcast}
    (ho : OpenedBroadcast x task a y) (hp : x.Issued p) : SamePort p x y := by
  cases ho with
  | closed hx => exact .of_core rfl
  | opened name y hx hn hy =>
    refine ⟨?_, ?_, ?_⟩
    · rw [ticket?, ticket?, show y.pending = x.pending from congrArg Core.pending hy]
    · rw [portName?_opened h (congrArg Core.ports hy), if_neg hp.ne_next]
    · rw [inbox_opened h (congrArg Core.inboxes hy), if_neg hp.ne_next]

theorem Posted.samePort {q : PortId} {v : Value} {d : Delivery} (hq : q ≠ p)
    (hpost : Posted x q v d y) : SamePort p x y := by
  cases hpost with
  | completed w r hx hr =>
    have hretired : SamePort p x (({ x with pending := r }.wake w.toList).record .completed) := by
      refine ⟨?_, rfl, rfl⟩
      change r.ticket? p = _
      rw [Pending.ticket?_retire hr, if_neg hq.symm]
      rfl
    exact hretired.trans (.of_core (core_ring _))
  | queued hx ht hn hb =>
    have hpushed : SamePort p x ((x.setInbox q ((x.inbox q).push v).2).record .queued) :=
      ⟨rfl, rfl, x.inbox_setInbox_ne _ hq.symm⟩
    exact hpushed.trans (.of_core (core_ring _))
  | dropped why hd =>
    have hcounted : SamePort p x (x.record .dropped) := ⟨rfl, rfl, rfl⟩
    exact hcounted.trans (.of_core (core_drop x q why))

theorem Op.samePort (h : x.Consistent) (hp : x.Issued p) (o : Op) (ho : o.Lawful x)
    (hs : o.SparesPort p) (hr : o.isRelease = true → 2 ≤ x.owners) :
    SamePort p x (o.exec x) := by
  cases o with
  | openSingle => exact x.openSingle_opened.samePort hp
  | openBroadcast task => exact (x.openBroadcast_opened task).samePort h hp
  | post q v => exact (x.post_posted q v).samePort hs
  | closePort q =>
    by_cases hq : q = reversePort
    · rw [hq]
      exact .of_core rfl
    · exact .of_retired (retired_closePort h hq) hs
  | closeBroadcast b => exact .of_retired (Broadcast.retired_close h b ho).1 hs
  | receive q => exact ⟨rfl, rfl, x.inbox_setInbox_ne _ (Ne.symm hs)⟩
  | read k r => exact ⟨rfl, rfl, rfl⟩
  | shutdown => exact hs.elim
  | hold => exact ⟨rfl, rfl, rfl⟩
  | release =>
    change SamePort p x x.release
    rw [release_of_shared (hr rfl)]
    exact ⟨rfl, rfl, rfl⟩

/-- `k` is the ticket that `p` was given, and `p` gets no other. -/
structure Tied (p : PortId) (k : Ticket) (x : Exchange) : Prop where
  issued : x.Issued p
  lt : k < x.pending.slots.length
  ticket : ∀ j, x.ticket? p = some j → j = k
  port : ∀ q, x.ticket? q = some k → q = p

theorem Tied.grows (h : Tied p k x) (hg : Grows x y) : Tied p k y where
  issued := hg.issued p h.issued
  lt := Nat.lt_of_lt_of_le h.lt hg.slots
  ticket j hj := by
    rcases hg.ticket p j hj with hj | ⟨hp, -⟩
    · exact h.ticket j hj
    · exact absurd h.issued hp
  port q hq := by
    rcases hg.ticket q k hq with hq | ⟨-, hk⟩
    · exact h.port q hq
    · exact absurd h.lt (Nat.not_lt_of_le hk)

/-- A port is pending if and only if its slot is not settled. -/
theorem Tied.pending_iff (h : Tied p k x) (hx : x.Consistent) :
    (x.ticket? p).isSome = !(x.slot k).isSettled := by
  cases ht : x.ticket? p with
  | some j =>
    have hj := h.ticket j ht
    subst hj
    rw [slot, hx.pending.unsettled ht]
    rfl
  | none =>
    cases hs : (x.slot k).isSettled with
    | true => rfl
    | false =>
      obtain ⟨q, hq⟩ := (hx.pending.unsettled_iff k).1 hs
      have hqp := h.port q hq
      subst hqp
      rw [ticket?, hq] at ht
      cases ht

theorem slot_of_retired {q : PortId} (h : Retired q x y) (ht : Tied p k x) (hq : q ≠ p) :
    y.slot k = x.slot k := by
  rw [h.slot, if_neg]
  intro hk
  exact hq (ht.port q hk)

theorem OpenedSingle.slot_eq {a : Except Fault (PortId × Ticket)} (ho : OpenedSingle x a y)
    (hk : k < x.pending.slots.length) : y.slot k = x.slot k := by
  cases ho with
  | closed hx => rfl
  | refused f hx hreg => rfl
  | opened j r hx hreg =>
    have hj := (Pending.register_eq_ok hreg).2.2.1
    rw [slot, Pending.slot_register hreg, if_neg (by rw [hj]; exact Nat.ne_of_lt hk)]
    rfl

theorem Posted.slot_eq {q : PortId} {v : Value} {d : Delivery} (hpost : Posted x q v d y)
    (hk : x.ticket? q ≠ some k) : y.slot k = x.slot k := by
  cases hpost with
  | completed w r hx hr =>
    rw [slot_congr (core_ring _)]
    exact Pending.slot_retire_ne hr hk
  | queued hx ht hn hb =>
    rw [slot_congr (core_ring _)]
    rfl
  | dropped why hd =>
    rw [slot_congr (core_drop x q why)]
    rfl

theorem Op.slot_exec (h : x.Consistent) (ht : Tied p k x) (o : Op) (ho : o.Lawful x)
    (hs : o.SparesPort p) (hk : o.SparesSlot k) (hr : o.isRelease = true → 2 ≤ x.owners) :
    (o.exec x).slot k = x.slot k := by
  cases o with
  | openSingle => exact x.openSingle_opened.slot_eq ht.lt
  | openBroadcast task =>
    change (x.openBroadcast task).2.slot k = _
    unfold Exchange.openBroadcast
    split <;> rfl
  | post q v => exact (x.post_posted q v).slot_eq fun hq => hs (ht.port q hq)
  | closePort q =>
    by_cases hq : q = reversePort
    · rw [hq]
      rfl
    · exact slot_of_retired (retired_closePort h hq) ht hs
  | closeBroadcast b => exact slot_of_retired (Broadcast.retired_close h b ho).1 ht hs
  | receive q => rfl
  | read j r => exact x.pending.slot_setSlot_ne _ (Ne.symm hk)
  | shutdown => exact hs.elim
  | hold => rfl
  | release =>
    change x.release.slot k = _
    rw [release_of_shared (hr rfl)]
    rfl

def tally (x : Exchange) : UInt64 :=
  x.counters.completed + x.counters.queued + x.counters.dropped

theorem tally_congr (h : y.core = x.core) : y.tally = x.tally := by
  have hc : y.counters.completed = x.counters.completed := congrArg Core.completed h
  have hq : y.counters.queued = x.counters.queued := congrArg Core.queued h
  have hd : y.counters.dropped = x.counters.dropped := congrArg Core.dropped h
  rw [tally, tally, hc, hq, hd]

theorem Settled.tally_eq (h : Settled x y) : y.tally = x.tally := by
  obtain ⟨hc, hq, hd⟩ : _ ∧ _ ∧ _ := by simpa only [Prod.mk.injEq] using h.counts
  rw [tally, tally, hc, hq, hd]

theorem Posted.owners_eq {v : Value} {d : Delivery} (hp : Posted x p v d y) :
    y.owners = x.owners := by
  cases hp with
  | completed w r hx hr => exact (owners_congr (core_ring _)).trans rfl
  | queued hx ht hn hb => exact (owners_congr (core_ring _)).trans rfl
  | dropped why hd => exact (owners_congr (core_drop x p why)).trans rfl

theorem owners_post (x : Exchange) (p : PortId) (v : Value) : (x.post p v).2.owners = x.owners :=
  (x.post_posted p v).owners_eq

theorem Posted.tally_eq {v : Value} {d : Delivery} (hp : Posted x p v d y) :
    y.tally = x.tally + 1 := by
  cases hp with
  | completed w r hx hr =>
    rw [tally_congr (core_ring _)]
    change x.counters.completed + 1 + x.counters.queued + x.counters.dropped = _
    rw [tally]
    ac_rfl
  | queued hx ht hn hb =>
    rw [tally_congr (core_ring _)]
    change x.counters.completed + (x.counters.queued + 1) + x.counters.dropped = _
    rw [tally]
    ac_rfl
  | dropped why hd =>
    rw [tally_congr (core_drop x p why)]
    change x.counters.completed + x.counters.queued + (x.counters.dropped + 1) = _
    rw [tally]
    ac_rfl

theorem OpenedSingle.owners_eq {a : Except Fault (PortId × Ticket)} (ho : OpenedSingle x a y) :
    y.owners = x.owners := by
  cases ho <;> rfl

theorem OpenedSingle.tally_eq {a : Except Fault (PortId × Ticket)} (ho : OpenedSingle x a y) :
    y.tally = x.tally := by
  cases ho <;> rfl

theorem tally_release (h : x.Consistent) : x.release.tally = x.tally := by
  unfold release
  split
  · rfl
  · exact (down_shutdown h).tally_eq
  · rfl

theorem Op.owners_exec (h : x.Consistent) (o : Op) (ho : o.Lawful x)
    (hr : o.isRelease = true → 1 ≤ x.owners) :
    (o.exec x).owners + o.isRelease.toNat = x.owners + o.isHold.toNat := by
  cases o with
  | openSingle => exact x.openSingle_opened.owners_eq
  | openBroadcast task =>
    change (x.openBroadcast task).2.owners = x.owners
    unfold Exchange.openBroadcast
    split <;> rfl
  | post p v => exact x.owners_post p v
  | closePort p =>
    by_cases hp : p = reversePort
    · rw [hp]
      rfl
    · exact (retired_closePort h hp).owners
  | closeBroadcast b => exact (Broadcast.retired_close h b ho).1.owners
  | receive p => rfl
  | read k r => rfl
  | shutdown => exact (down_shutdown h).owners
  | hold => rfl
  | release => exact x.owners_release (hr rfl)

theorem Op.tally_exec (h : x.Consistent) (o : Op) (ho : o.Lawful x) (hp : o.isPost = false) :
    (o.exec x).tally = x.tally := by
  cases o with
  | openSingle => exact x.openSingle_opened.tally_eq
  | openBroadcast task =>
    change (x.openBroadcast task).2.tally = x.tally
    unfold Exchange.openBroadcast
    split <;> rfl
  | post p v => cases hp
  | closePort p =>
    by_cases hp : p = reversePort
    · rw [hp]
      rfl
    · exact (retired_closePort h hp).tally_eq
  | closeBroadcast b => exact (Broadcast.retired_close h b ho).1.tally_eq
  | shutdown => exact (down_shutdown h).tally_eq
  | release => exact tally_release h
  | receive | read | hold => rfl

end CallExchange.Exchange
