import CallExchange.Proofs.Exchange.Changes

set_option autoImplicit false

/-!
# After a shutdown

Whatever shuts an exchange down gives up who waits and leaves what was delivered. From then on the
exchange only loses what is left in it, to those who read it: nothing is opened, nothing arrives,
and what was given up stays so.
-/

namespace CallExchange.Exchange

variable {x y z : Exchange} {p : PortId} {k : Ticket} {o : Op} {ops : List Op}

structure Shut (x : Exchange) : Prop where
  consistent : x.Consistent
  closed : x.closed = true

/-- From `x` to `y` values are only taken out, the oldest first. -/
structure Wanes (x y : Exchange) : Prop where
  closed : y.closed = true
  slot : ∀ k, y.slot k = x.slot k ∨ (∃ v, x.slot k = .ready v) ∧ y.slot k = .taken
  inbox : ∀ p, (y.inbox p).closed = true ∧ (y.inbox p).queue <:+ (x.inbox p).queue

def Op.Takes (p : PortId) : Op → Prop
  | .receive q => q = p
  | .closeBroadcast b => b.id = p
  | _ => False

namespace Shut

theorem settled (h : x.Shut) (k : Ticket) : (x.slot k).isSettled = true := by
  cases hk : (x.slot k).isSettled with
  | true => rfl
  | false =>
    obtain ⟨p, hp⟩ := (h.consistent.pending.unsettled_iff k).1 hk
    rw [show x.pending.ticket? p = none from h.consistent.closed_tickets h.closed p] at hp
    cases hp

theorem inbox_closed (h : x.Shut) (p : PortId) : (x.inbox p).closed = true := by
  have hopen := h.consistent.open_iff p
  rw [h.consistent.closed_names h.closed p] at hopen
  simpa using hopen.symm

theorem pendingCalls (h : x.Shut) : x.pendingCalls = 0 := by
  rw [Exchange.pendingCalls, Pending.size, h.consistent.waiting_nil h.closed]
  rfl

theorem openPorts (h : x.Shut) : x.openPorts = 0 := by
  rw [Exchange.openPorts, h.consistent.ports_nil h.closed]
  exact Nat.zero_sub _

theorem refl (h : x.Shut) : Wanes x x :=
  ⟨h.closed, fun _ => .inl rfl, fun p => ⟨h.inbox_closed p, List.suffix_rfl⟩⟩

end Shut

namespace Wanes

theorem trans (h : Wanes x y) (h' : Wanes y z) : Wanes x z where
  closed := h'.closed
  slot k := by
    rcases h'.slot k with he | ⟨⟨v, hv⟩, htaken⟩
    · rw [he]
      exact h.slot k
    · rcases h.slot k with he | ⟨-, he⟩
      · exact .inr ⟨⟨v, he ▸ hv⟩, htaken⟩
      · rw [he] at hv
        cases hv
  inbox p := ⟨(h'.inbox p).1, (h'.inbox p).2.trans (h.inbox p).2⟩

end Wanes

/-- What waits is not settled but by a post, and what was given up stays so. -/
theorem SlotChange.waits_or_abandoned {s : OneShot Value} (hc : SlotChange x k o s)
    (ho : o.isPost = false) (hx : (x.slot k).isSettled = false ∨ x.slot k = .abandoned)
    (hk : k < x.pending.slots.length) : s.isSettled = false ∨ s = .abandoned := by
  cases hc with
  | same => exact hx
  | issued _ hlast => exact absurd hlast (Nat.ne_of_lt hk)
  | completed => cases ho
  | givenUp => exact .inr rfl
  | read r =>
    rcases hx with hopen | habandoned
    · exact .inl ((r.isSettled_run _).trans hopen)
    · right
      rcases r.run_settled (s := x.slot k) (by rw [habandoned]; rfl) with he | ⟨⟨v, hv⟩, -⟩
      · rw [he, habandoned]
      · rw [habandoned] at hv
        cases hv

theorem SlotChange.of_settled {s : OneShot Value} (hc : SlotChange x k o s) (h : x.Consistent)
    (hk : k < x.pending.slots.length) (hs : (x.slot k).isSettled = true) (ho : o.SparesSlot k) :
    s = x.slot k := by
  cases hc with
  | same => rfl
  | issued _ hlast => exact absurd hlast (Nat.ne_of_lt hk)
  | completed p v ht =>
    rw [slot, h.pending.unsettled ht] at hs
    cases hs
  | givenUp _ _ hopen =>
    rw [hs] at hopen
    cases hopen
  | read r => exact absurd rfl ho

theorem InboxChange.queue_eq {b : Inbox} (hc : InboxChange x p o b) (h : x.Consistent)
    (ho : o.isPost = false) (hp : ¬ o.Takes p) : b.queue = (x.inbox p).queue := by
  cases hc with
  | same => rfl
  | opened task _ hnext =>
    have hnone : x.hasInbox p = false := by
      cases hi : x.hasInbox p with
      | false => rfl
      | true => exact absurd hnext (h.inbox_issued p hi).ne_next
    rw [x.inbox_of_not_hasInbox p hnone]
    rfl
  | queued => cases ho
  | received => exact absurd rfl hp
  | closed => rfl
  | discarded b hb => exact absurd hb hp

theorem SlotChange.of_shut {s : OneShot Value} (hc : SlotChange x k o s) (h : x.Shut) :
    s = x.slot k ∨ ∃ r, o = .read k r ∧ s = (r.run (x.slot k)).2 := by
  cases hc with
  | same => exact .inl rfl
  | issued hx =>
    rw [h.closed] at hx
    cases hx
  | completed p v ht =>
    rw [h.consistent.closed_tickets h.closed p] at ht
    cases ht
  | givenUp _ _ hs =>
    rw [h.settled k] at hs
    cases hs
  | read r => exact .inr ⟨r, rfl, rfl⟩

theorem InboxChange.of_shut {b : Inbox} (hc : InboxChange x p o b) (h : x.Shut) :
    b = x.inbox p ∨ o.Takes p ∧ (b = (x.inbox p).tryReceive.2 ∨ b = ⟨[], true⟩) := by
  cases hc with
  | same => exact .inl rfl
  | opened task hx =>
    rw [h.closed] at hx
    cases hx
  | queued v hb =>
    rw [h.inbox_closed p] at hb
    cases hb
  | received => exact .inr ⟨rfl, .inl rfl⟩
  | closed =>
    left
    rw [Inbox.close, ← h.inbox_closed p]
  | discarded b hb => exact .inr ⟨hb, .inr rfl⟩

theorem Op.wanes (h : x.Shut) (o : Op) (ho : o.Lawful x) : Wanes x (o.exec x) where
  closed := o.stays_closed h.consistent ho h.closed
  slot k := by
    rcases (o.slotChange h.consistent ho k).of_shut h with he | ⟨r, -, he⟩
    · exact .inl he
    · rw [he]
      exact r.run_settled (h.settled k)
  inbox p := by
    rcases (o.inboxChange h.consistent ho p).of_shut h with he | ⟨-, he | he⟩
    · rw [he]
      exact ⟨h.inbox_closed p, List.suffix_rfl⟩
    · rw [he, closed_tryReceive, queue_tryReceive]
      exact ⟨h.inbox_closed p, List.tail_suffix _⟩
    · rw [he]
      exact ⟨rfl, List.nil_suffix⟩

theorem Op.inbox_of_shut (h : x.Shut) (o : Op) (ho : o.Lawful x) (hp : ¬ o.Takes p) :
    (o.exec x).inbox p = x.inbox p :=
  ((o.inboxChange h.consistent ho p).of_shut h).resolve_right fun ht => hp ht.1

namespace Runs

theorem preserves_shut {P : Exchange → Prop} (hr : Runs ops x y) (h : x.Shut) (hf : Fit ops x)
    (hcore : ∀ {a b : Exchange}, b.core = a.core → P a → P b)
    (hexec : ∀ {a : Exchange}, ∀ o ∈ ops, a.Shut → o.Lawful a → P a → P (o.exec a)) (hx : P x) :
    Wanes x y ∧ P y := by
  refine hr.preserves (P := fun z => Wanes x z ∧ P z) h.consistent hf ?_ ?_ ⟨h.refl, hx⟩
  · rintro a b hc ⟨ha, hpa⟩
    refine ⟨⟨(closed_congr hc).trans ha.closed, fun k => ?_, fun p => ?_⟩, hcore hc hpa⟩
    · rw [slot_congr hc]
      exact ha.slot k
    · rw [inbox_congr hc]
      exact ha.inbox p
  · rintro a o ho ha hl - ⟨hw, hpa⟩
    have hshut : Shut _ := ⟨ha, hw.closed⟩
    exact ⟨hw.trans (o.wanes hshut hl), hexec o ho hshut hl hpa⟩

theorem wanes (hr : Runs ops x y) (h : x.Shut) (hf : Fit ops x) : Wanes x y :=
  (hr.preserves_shut (P := fun _ => True) h hf (fun _ _ => trivial) (fun _ _ _ _ _ => trivial)
    trivial).1

theorem inbox_of_shut (hr : Runs ops x y) (h : x.Shut) (hf : Fit ops x)
    (hp : ∀ o ∈ ops, ¬ o.Takes p) : y.inbox p = x.inbox p :=
  (hr.preserves_shut (P := fun z => z.inbox p = x.inbox p) h hf
    (fun hc ha => by rwa [inbox_congr hc])
    (fun o ho hs hl hpa => (o.inbox_of_shut hs hl (hp o ho)).trans hpa) rfl).2

/-- Whoever still waits when the exchange is shut is given up. -/
theorem abandons (hr : Runs ops x y) (h : x.Consistent) (hf : Fit ops x)
    (hp : ∀ o ∈ ops, o.isPost = false) (hy : y.Shut) (hk : (x.slot k).isSettled = false) :
    y.slot k = .abandoned := by
  have hlt := x.pending.lt_of_unsettled k hk
  have hlast : (y.slot k).isSettled = false ∨ y.slot k = .abandoned := by
    refine hr.preserves (P := fun z => (z.slot k).isSettled = false ∨ z.slot k = .abandoned) h hf
      (fun hc ha => by rwa [slot_congr hc]) ?_ (.inl hk)
    intro a o ho ha hl hg hpa
    exact (o.slotChange ha hl k).waits_or_abandoned (hp o ho) hpa (Nat.lt_of_lt_of_le hlt hg.slots)
  refine hlast.resolve_left fun hopen => ?_
  rw [hy.settled k] at hopen
  cases hopen

/-- What was delivered stays in its slot until it is read. -/
theorem keeps_ready (hr : Runs ops x y) (h : x.Consistent) (hf : Fit ops x)
    (ho : ∀ o ∈ ops, o.SparesSlot k) {v : Value} (hk : x.slot k = .ready v) :
    y.slot k = .ready v := by
  have hlt : k < x.pending.slots.length := by
    by_contra hge
    rw [slot, Pending.slot, List.getD_eq_getElem?_getD,
      List.getElem?_eq_none (Nat.le_of_not_lt hge)] at hk
    cases hk
  refine hr.preserves (P := fun z => z.slot k = .ready v) h hf
    (fun hc ha => by rwa [slot_congr hc]) ?_ hk
  intro a o hmem ha hl hg hpa
  have hsettled : (a.slot k).isSettled = true := by
    rw [hpa]
    rfl
  exact ((o.slotChange ha hl k).of_settled ha (Nat.lt_of_lt_of_le hlt hg.slots) hsettled
    (ho o hmem)).trans hpa

theorem keeps_queue (hr : Runs ops x y) (h : x.Consistent) (hf : Fit ops x)
    (hpost : ∀ o ∈ ops, o.isPost = false) (hp : ∀ o ∈ ops, ¬ o.Takes p) :
    (y.inbox p).queue = (x.inbox p).queue :=
  hr.preserves (P := fun z => (z.inbox p).queue = (x.inbox p).queue) h hf
    (fun hc ha => by rwa [inbox_congr hc])
    (fun o ho ha hl _ hpa => ((o.inboxChange ha hl p).queue_eq ha (hpost o ho) (hp o ho)).trans hpa) rfl

end Runs

end CallExchange.Exchange
