import CallExchange.Proofs.Exchange.Opening

set_option autoImplicit false

/-!
# Operations

Whatever is done to an exchange is a sequence of a few operations, up to what the core leaves out.
Each fact about a sequence comes from the same fact about one operation: that it keeps an exchange
consistent, that numbers and tickets are given out once, which ports and slots it leaves alone,
and what it does to the number of owners and to the counts of deliveries.
-/

namespace CallExchange.Exchange

inductive Op where
  | openSingle
  | openBroadcast (task : String)
  | post (p : PortId) (v : Value)
  | closePort (p : PortId)
  | closeBroadcast (b : Broadcast)
  /-- Takes the first value out of an inbox. -/
  | receive (p : PortId)
  | read (k : Ticket) (r : OneShot.Read)
  | shutdown
  | hold
  | release

namespace Op

def exec : Op → Exchange → Exchange
  | openSingle, x => x.openSingle.2
  | openBroadcast task, x => (x.openBroadcast task).2
  | post p v, x => (x.post p v).2
  | closePort p, x => (x.closePort p).2
  | closeBroadcast b, x => (b.close x).2
  | receive p, x => x.setInbox p (x.inbox p).tryReceive.2
  | read k r, x => { x with pending := (x.pending.read k r).2 }
  | shutdown, x => x.shutdown
  | hold, x => x.hold
  | release, x => x.release

def opens : Op → Bool
  | openSingle | openBroadcast _ => true
  | _ => false

def isPost : Op → Bool
  | post _ _ => true
  | _ => false

def isHold : Op → Bool
  | hold => true
  | _ => false

def isRelease : Op → Bool
  | release => true
  | _ => false

/-- Whether there is a number for what the operation opens, and what it closes is not the port for
reverse calls. -/
def Lawful (x : Exchange) : Op → Prop
  | openSingle | openBroadcast _ => x.HasRoom
  | closeBroadcast b => b.id ≠ reversePort
  | _ => True

def SparesPort (p : PortId) : Op → Prop
  | post q _ | closePort q | receive q => q ≠ p
  | closeBroadcast b => b.id ≠ p
  | shutdown => False
  | _ => True

def SparesSlot (k : Ticket) : Op → Prop
  | read j _ => j ≠ k
  | _ => True

end Op

variable {x y z : Exchange} {p : PortId} {k : Ticket}

theorem release_of_shared (h : 2 ≤ x.owners) : x.release = { x with owners := x.owners - 1 } := by
  unfold release
  split
  · omega
  · omega
  · rename_i n hn
    rw [hn]
    rfl

theorem owners_release (x : Exchange) (h : 1 ≤ x.owners) : x.release.owners + 1 = x.owners := by
  unfold release
  split
  · omega
  · rename_i hn
    rw [hn]
  · rename_i n hn
    rw [hn]

theorem Op.consistent (h : x.Consistent) (o : Op) (ho : o.Lawful x) : (o.exec x).Consistent := by
  cases o with
  | openSingle => exact x.openSingle_opened.consistent h ho
  | openBroadcast task => exact (x.openBroadcast_opened task).consistent h ho
  | post p v => exact (x.post_posted p v).consistent h
  | closePort p =>
    by_cases hp : p = reversePort
    · rw [hp]
      exact h
    · exact h.retired hp (retired_closePort h hp)
  | closeBroadcast b => exact h.retired ho (Broadcast.retired_close h b ho).1
  | receive p =>
    apply consistent_setInbox h
    rw [Inbox.tryReceive]
    split <;> rfl
  | read k r => exact consistent_setSlot h (OneShot.Read.isSettled_run r _)
  | shutdown => exact h.down (down_shutdown h)
  | hold => exact consistent_hold h
  | release => exact consistent_release h

/-- Numbers and tickets are given out once, and inboxes are kept. -/
structure Grows (x y : Exchange) : Prop where
  issued : ∀ p, x.Issued p → y.Issued p
  slots : x.pending.slots.length ≤ y.pending.slots.length
  hasInbox : ∀ p, x.hasInbox p = true → y.hasInbox p = true
  ticket : ∀ p k, y.ticket? p = some k →
    x.ticket? p = some k ∨ ¬ x.Issued p ∧ x.pending.slots.length ≤ k

namespace Grows

theorem of_eq (hn : y.nextPort = x.nextPort)
    (hs : y.pending.slots.length = x.pending.slots.length)
    (hi : ∀ p, y.hasInbox p = x.hasInbox p)
    (ht : ∀ p k, y.ticket? p = some k → x.ticket? p = some k) : Grows x y where
  issued p hp := by
    rw [Issued, hn]
    exact hp
  slots := Nat.le_of_eq hs.symm
  hasInbox p hp := (hi p).trans hp
  ticket p k hk := .inl (ht p k hk)

theorem of_core (h : y.core = x.core) : Grows x y :=
  of_eq (nextPort_congr h) (by rw [pending_congr h])
    (fun p => by rw [Exchange.hasInbox, Exchange.hasInbox, inboxes_congr h])
    (fun p k hk => by rwa [ticket?_congr h] at hk)

theorem trans (h : Grows x y) (h' : Grows y z) : Grows x z where
  issued p hp := h'.issued p (h.issued p hp)
  slots := Nat.le_trans h.slots h'.slots
  hasInbox p hp := h'.hasInbox p (h.hasInbox p hp)
  ticket p k hk := by
    rcases h'.ticket p k hk with hk | ⟨hp, hk⟩
    · exact h.ticket p k hk
    · exact .inr ⟨fun hx => hp (h.issued p hx), Nat.le_trans h.slots hk⟩

theorem of_retired (h : Retired p x y) : Grows x y := by
  refine of_eq h.nextPort h.slots h.hasInbox ?_
  intro q k hk
  rw [h.ticket] at hk
  split at hk
  · cases hk
  · exact hk

theorem of_down (h : Down x y) : Grows x y := by
  refine of_eq h.nextPort h.slots h.hasInbox ?_
  intro q k hk
  rw [h.ticket] at hk
  cases hk

end Grows

theorem OpenedSingle.grows (hr : x.HasRoom) {a : Except Fault (PortId × Ticket)}
    (ho : OpenedSingle x a y) : Grows x y := by
  cases ho with
  | closed hx => exact .of_core rfl
  | refused f hx hreg =>
    exact ⟨fun q hq => issued_next hr rfl hq, Nat.le_refl _, fun q hq => hq, fun q k hk => .inl hk⟩
  | opened k r hx hreg =>
    refine ⟨fun q hq => issued_next hr rfl hq, ?_, fun q hq => hq, ?_⟩
    · change _ ≤ r.slots.length
      rw [Pending.slots_register_length hreg]
      exact Nat.le_succ _
    · intro q j hj
      rw [ticket?, Pending.ticket?_register hreg] at hj
      split at hj
      · rename_i hq
        rw [hq]
        have hk : x.pending.slots.length = j :=
          (Pending.register_eq_ok hreg).2.2.1.symm.trans (Option.some.inj hj)
        exact .inr ⟨x.not_issued_next, Nat.le_of_eq hk⟩
      · exact .inl hj

theorem OpenedBroadcast.grows (hr : x.HasRoom) {task : String} {a : Except Fault Broadcast}
    (ho : OpenedBroadcast x task a y) : Grows x y := by
  cases ho with
  | closed hx => exact .of_core rfl
  | opened name y hx hn hy =>
    have hpend : y.pending = x.pending := congrArg Core.pending hy
    refine ⟨fun q hq => issued_next hr (congrArg Core.nextPort hy) hq,
      Nat.le_of_eq (by rw [hpend]), ?_, ?_⟩
    · intro q hq
      rw [hasInbox_opened (congrArg Core.inboxes hy), hq]
      rfl
    · intro q k hk
      rw [ticket?, hpend] at hk
      exact .inl hk

theorem Posted.grows {v : Value} {d : Delivery} (hp : Posted x p v d y) : Grows x y := by
  cases hp with
  | completed w r hx hr =>
    have hretired : Grows x (({ x with pending := r }.wake w.toList).record .completed) := by
      refine .of_eq rfl (Pending.slots_retire_length hr) (fun _ => rfl) ?_
      intro q k hk
      have ht : r.ticket? q = some k := hk
      rw [Pending.ticket?_retire hr] at ht
      split at ht
      · cases ht
      · exact ht
    exact hretired.trans (.of_core (core_ring _))
  | queued hx ht hn hb =>
    have hpushed : Grows x ((x.setInbox p ((x.inbox p).push v).2).record .queued) :=
      .of_eq rfl rfl (fun q => x.hasInbox_setInbox p q _) (fun _ _ hk => hk)
    exact hpushed.trans (.of_core (core_ring _))
  | dropped why hd =>
    have hcounted : Grows x (x.record .dropped) := .of_eq rfl rfl (fun _ => rfl) (fun _ _ hk => hk)
    exact hcounted.trans (.of_core (core_drop x p why))

theorem Op.grows (h : x.Consistent) (o : Op) (ho : o.Lawful x) : Grows x (o.exec x) := by
  cases o with
  | openSingle => exact x.openSingle_opened.grows ho
  | openBroadcast task => exact (x.openBroadcast_opened task).grows ho
  | post p v => exact (x.post_posted p v).grows
  | closePort p =>
    by_cases hp : p = reversePort
    · rw [hp]
      exact .of_core rfl
    · exact .of_retired (retired_closePort h hp)
  | closeBroadcast b => exact .of_retired (Broadcast.retired_close h b ho).1
  | receive p => exact .of_eq rfl rfl (fun q => x.hasInbox_setInbox p q _) (fun _ _ hk => hk)
  | read k r => exact .of_eq rfl (Pending.slots_setSlot_length _ _ _) (fun _ => rfl) (fun _ _ hk => hk)
  | shutdown => exact .of_down (down_shutdown h)
  | hold => exact .of_eq rfl rfl (fun _ => rfl) (fun _ _ hk => hk)
  | release =>
    change Grows x x.release
    unfold Exchange.release
    split
    · exact .of_core rfl
    · exact .trans (.of_down (down_shutdown h)) (.of_eq rfl rfl (fun _ => rfl) (fun _ _ hk => hk))
    · exact .of_eq rfl rfl (fun _ => rfl) (fun _ _ hk => hk)

end CallExchange.Exchange
