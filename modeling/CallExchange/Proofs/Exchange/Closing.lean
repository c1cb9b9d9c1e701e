import CallExchange.Proofs.Exchange.Consistent

set_option autoImplicit false

/-!
# Closing ports

What closing a port, closing a broadcast port from its managed end, a shutdown and letting go of
the exchange retire.
-/

namespace CallExchange.Exchange

variable {x : Exchange} {p : PortId}

theorem settled_setInbox (x : Exchange) (p : PortId) (b : Inbox) : Settled x (x.setInbox p b) where
  settings := rfl
  nextPort := rfl
  slots := rfl
  hasInbox q := x.hasInbox_setInbox p q b
  owners := rfl
  counts := rfl

theorem closeBroadcast_fst (x : Exchange) (p : PortId) :
    (x.closeBroadcast p).1 = (x.portName? p).isSome := by
  unfold closeBroadcast
  cases x.portName? p <;> rfl

theorem portName?_closeBroadcast (x : Exchange) (p q : PortId) :
    (x.closeBroadcast p).2.portName? q = if q = p then none else x.portName? q := by
  unfold closeBroadcast
  cases h : x.portName? p with
  | none =>
    by_cases hq : q = p
    · subst hq
      simpa using h
    · simp [hq]
  | some name => exact Lookup.lookup_without x.ports p q

theorem inbox_closeBroadcast_ne (x : Exchange) {p q : PortId} (h : q ≠ p) :
    (x.closeBroadcast p).2.inbox q = x.inbox q := by
  unfold closeBroadcast
  cases x.portName? p with
  | none => rfl
  | some name => exact x.inbox_setInbox_ne _ h

theorem inbox_closeBroadcast (x : Exchange) (p : PortId) :
    (x.closeBroadcast p).2.inbox p =
      if (x.portName? p).isSome then (x.inbox p).close.2 else x.inbox p := by
  unfold closeBroadcast
  cases x.portName? p with
  | none => rfl
  | some name =>
    refine (x.inbox_setInbox p p _).trans ?_
    by_cases hi : x.hasInbox p = true
    · simp [hi]
    · rw [x.inbox_of_not_hasInbox p (by simpa using hi)]
      simp [hi, Inbox.close]

theorem settled_closeBroadcast (x : Exchange) (p : PortId) :
    Settled x (x.closeBroadcast p).2 := by
  unfold closeBroadcast
  cases x.portName? p with
  | none => exact .of_core rfl
  | some name =>
    have hs := x.settled_setInbox p (x.inbox p).close.2
    exact { hs with }

theorem pending_closeBroadcast (x : Exchange) (p : PortId) :
    (x.closeBroadcast p).2.pending = x.pending := by
  unfold closeBroadcast
  cases x.portName? p <;> rfl

theorem closed_closeBroadcast (x : Exchange) (p : PortId) :
    (x.closeBroadcast p).2.closed = x.closed := by
  unfold closeBroadcast
  cases x.portName? p <;> rfl

theorem ports_nodup_closeBroadcast (h : (x.ports.map Prod.fst).Nodup) (p : PortId) :
    ((x.closeBroadcast p).2.ports.map Prod.fst).Nodup := by
  unfold closeBroadcast
  cases x.portName? p with
  | none => exact h
  | some name => exact Lookup.nodup_keys_without h p

theorem cancelPending_eq (x : Exchange) (p : PortId) :
    (x.cancelPending p = (false, x) ∧ x.ticket? p = none) ∨
      ∃ w r, x.pending.cancel? p = some (w, r) ∧
        x.cancelPending p = (true, { x with pending := r }.wake w.toList) := by
  unfold cancelPending
  cases h : x.pending.cancel? p with
  | none => exact .inl ⟨rfl, Pending.retire?_eq_none_iff.1 h⟩
  | some a => exact .inr ⟨a.1, a.2, rfl, rfl⟩

theorem closePort_snd (x : Exchange) (hp : p ≠ reversePort) :
    (x.closePort p).2 = ((x.closeBroadcast p).2.cancelPending p).2 := by
  rw [closePort, if_neg hp]

theorem cancelPending_fst (x : Exchange) (p : PortId) :
    (x.cancelPending p).1 = x.pending.contains p := by
  rw [cancelPending, Pending.contains_eq, Pending.cancel?, Pending.retire?]
  cases x.pending.ticket? p <;> rfl

/-- The port for reverse calls does not let itself be closed. -/
theorem closePort_fst_iff (x : Exchange) (p : PortId) :
    (x.closePort p).1 = true ↔ p ≠ reversePort ∧ x.isOpen p = true := by
  rw [closePort, isOpen]
  by_cases hp : p = reversePort
  · rw [if_pos hp]
    exact iff_of_false Bool.false_ne_true fun h => h.1 hp
  · rw [if_neg hp]
    dsimp only
    rw [closeBroadcast_fst, cancelPending_fst, pending_closeBroadcast, Bool.or_comm]
    exact (and_iff_right hp).symm

theorem closePort_unopened (h : (x.closePort p).1 = false) : (x.closePort p).2 = x := by
  by_cases hp : p = reversePort
  · rw [closePort, if_pos hp]
  · have hshut : x.isOpen p = false := Bool.eq_false_iff.2 fun ho => by
      rw [(x.closePort_fst_iff p).2 ⟨hp, ho⟩] at h
      cases h
    rw [isOpen_eq, Bool.or_eq_false_iff] at hshut
    obtain ⟨ht, hn⟩ : x.ticket? p = none ∧ x.portName? p = none := by simpa using hshut
    have hx : (x.closeBroadcast p).2 = x := by rw [closeBroadcast, hn]
    rw [x.closePort_snd hp, hx]
    rcases x.cancelPending_eq p with ⟨he, -⟩ | ⟨w, r, hr, -⟩
    · rw [he]
    · obtain ⟨k, hk, -⟩ := Pending.retire?_eq_some hr
      rw [ticket?, hk] at ht
      cases ht

section Retiring

variable (hs : x.pending.Sound) (hd : (x.ports.map Prod.fst).Nodup)
  (hin : ((x.closeBroadcast p).2.inbox p).closed = true)

include hs hd hin

theorem retired_closeBroadcast (hn : x.ticket? p = none) : Retired p x (x.closeBroadcast p).2 :=
  { x.settled_closeBroadcast p with
    closed := x.closed_closeBroadcast p
    ticket q := by
      rw [ticket?, x.pending_closeBroadcast p]
      by_cases hq : q = p
      · subst hq
        rw [if_pos rfl]
        exact hn
      · rw [if_neg hq]
        rfl
    name := x.portName?_closeBroadcast p
    inbox_ne q hq := x.inbox_closeBroadcast_ne hq
    inbox_closed := hin
    slot k := by
      rw [hn, if_neg (by simp), slot, x.pending_closeBroadcast p]
      rfl
    pending := x.pending_closeBroadcast p ▸ hs
    ports_nodup := ports_nodup_closeBroadcast hd p }

theorem retired_cancel {w : Option Waker} {r : Pending}
    (hr : x.pending.cancel? p = some (w, r)) :
    Retired p x ({ (x.closeBroadcast p).2 with pending := r }.wake w.toList) := by
  obtain ⟨k, hk, -⟩ := Pending.retire?_eq_some hr
  have hlength : r.slots.length = (x.closeBroadcast p).2.pending.slots.length := by
    rw [x.pending_closeBroadcast p]
    exact Pending.slots_retire_length hr
  have hset : Settled (x.closeBroadcast p).2
      ({ (x.closeBroadcast p).2 with pending := r }.wake w.toList) :=
    ⟨rfl, rfl, hlength, fun _ => rfl, rfl, rfl⟩
  exact
    { (x.settled_closeBroadcast p).trans hset with
      closed := x.closed_closeBroadcast p
      ticket := Pending.ticket?_retire hr
      name := x.portName?_closeBroadcast p
      inbox_ne q hq := x.inbox_closeBroadcast_ne hq
      inbox_closed := hin
      slot j := by
        have hj := Pending.slot_retire hs hr hk j
        rw [show x.ticket? p = some k from hk]
        by_cases hjk : j = k
        · subst hjk
          rw [if_pos rfl] at hj ⊢
          exact hj
        · rw [if_neg hjk] at hj
          rw [if_neg (by simpa using Ne.symm hjk)]
          exact hj
      pending := hs.retire OneShot.isSettled_abandon hr
      ports_nodup := ports_nodup_closeBroadcast hd p }

theorem retired_closePort_of_closed (hp : p ≠ reversePort) : Retired p x (x.closePort p).2 := by
  have hpend := x.pending_closeBroadcast p
  rw [x.closePort_snd hp]
  rcases (x.closeBroadcast p).2.cancelPending_eq p with ⟨he, hn⟩ | ⟨w, r, hr, he⟩
  · rw [he]
    rw [ticket?, hpend] at hn
    exact retired_closeBroadcast hs hd hin hn
  · rw [he]
    exact retired_cancel hs hd hin (hpend ▸ hr)

end Retiring

theorem inbox_closePort (h : x.Consistent) (hp : p ≠ reversePort) :
    (x.closePort p).2.inbox p = (x.inbox p).close.2 := by
  have hin : (x.closePort p).2.inbox p = (x.closeBroadcast p).2.inbox p := by
    rw [x.closePort_snd hp]
    rcases (x.closeBroadcast p).2.cancelPending_eq p with ⟨he, -⟩ | ⟨w, r, -, he⟩
    · rw [he]
    · rw [he]
      rfl
  rw [hin, inbox_closeBroadcast]
  by_cases hn : (x.portName? p).isSome = true
  · rw [if_pos hn]
  · have hc : (x.inbox p).closed = true := by
      have := h.open_iff p
      simp_all
    rw [if_neg hn, Inbox.close, ← hc]

theorem retired_closePort (h : x.Consistent) (hp : p ≠ reversePort) :
    Retired p x (x.closePort p).2 := by
  refine retired_closePort_of_closed h.pending h.ports_nodup ?_ hp
  rw [inbox_closeBroadcast]
  by_cases hn : (x.portName? p).isSome = true
  · rw [if_pos hn]
    rfl
  · have := h.open_iff p
    simp_all

/-- Closing a port that is open says so and retires it, whether a call waits on it or it is a
broadcast port. -/
theorem closePort_opened (h : x.Consistent) (hp : p ≠ reversePort) (ho : x.isOpen p = true) :
    (x.closePort p).1 = true ∧ Retired p x (x.closePort p).2 :=
  ⟨(x.closePort_fst_iff p).2 ⟨hp, ho⟩, retired_closePort h hp⟩

namespace Retired

variable {y : Exchange}

theorem of_setInbox {b : Inbox} (h : Retired p (x.setInbox p b) y) : Retired p x y :=
  ⟨(x.settled_setInbox p b).trans h.toSettled, h.closed, h.ticket, h.name,
    fun q hq => (h.inbox_ne q hq).trans (x.inbox_setInbox_ne b hq), h.inbox_closed, h.slot,
    h.pending, h.ports_nodup⟩

theorem setInbox (h : Retired p x y) {b : Inbox} (hb : b.closed = true) :
    Retired p x (y.setInbox p b) := by
  refine ⟨h.toSettled.trans (y.settled_setInbox p b), h.closed, h.ticket, h.name,
    fun q hq => (y.inbox_setInbox_ne b hq).trans (h.inbox_ne q hq), ?_, h.slot, h.pending,
    h.ports_nodup⟩
  rw [inbox_setInbox]
  split
  · exact hb
  · exact h.inbox_closed

theorem of_core {z : Exchange} (h : Retired p x y) (hc : z.core = y.core) : Retired p x z :=
  ⟨h.toSettled.trans (.of_core hc), (closed_congr hc).trans h.closed,
    fun q => (ticket?_congr hc q).trans (h.ticket q),
    fun q => (portName?_congr hc q).trans (h.name q),
    fun q hq => (inbox_congr hc q).trans (h.inbox_ne q hq), by rw [inbox_congr hc, h.inbox_closed],
    fun k => (slot_congr hc k).trans (h.slot k), by rw [pending_congr hc]; exact h.pending,
    by rw [ports_congr hc]; exact h.ports_nodup⟩

end Retired

theorem Broadcast.close_eq (b : Broadcast) (x : Exchange) :
    ∃ y z, (b.close x).1 = !(x.inbox b.id).closed ∧
      y = x.setInbox b.id (x.inbox b.id).close.2 ∧
      z = (if y.isGone then y else (y.closePort b.id).2) ∧
      (b.close x).2.core = (z.setInbox b.id (z.inbox b.id).discard.2).core := by
  refine ⟨_, _, rfl, rfl, rfl, ?_⟩
  simp only [Broadcast.close]
  split
  · split <;> rfl
  · split <;> rfl

theorem closed_setInbox_close (x : Exchange) (p : PortId) :
    ((x.setInbox p (x.inbox p).close.2).inbox p).closed = true := by
  rw [inbox_setInbox]
  by_cases hi : x.hasInbox p = true
  · rw [if_pos ⟨rfl, hi⟩]
    rfl
  · rw [if_neg (fun h => hi h.2), x.inbox_of_not_hasInbox _ (by simpa using hi)]

theorem retired_of_closed (h : x.Consistent) (hx : x.closed = true) {b : Inbox}
    (hb : ((x.setInbox p b).inbox p).closed = true) : Retired p x (x.setInbox p b) :=
  { x.settled_setInbox p b with
    closed := rfl
    ticket q := by
      change x.ticket? q = _
      rw [h.closed_tickets hx, ite_self]
    name q := by
      change x.portName? q = _
      rw [h.closed_names hx, ite_self]
    inbox_ne q hq := x.inbox_setInbox_ne _ hq
    inbox_closed := hb
    slot k := by
      rw [h.closed_tickets hx, if_neg (by simp)]
      rfl
    pending := h.pending
    ports_nodup := h.ports_nodup }

theorem Broadcast.retired_close (h : x.Consistent) (b : Broadcast) (hb : b.id ≠ reversePort) :
    Retired b.id x (b.close x).2 ∧ (b.close x).2.inbox b.id = ⟨[], true⟩ := by
  obtain ⟨y, z, -, hy, hz, hcore⟩ := b.close_eq x
  have hyc := x.closed_setInbox_close b.id
  have hret : Retired b.id x z := by
    by_cases hg : y.isGone = true
    · rw [if_pos hg] at hz
      subst hz
      subst hy
      exact retired_of_closed h (h.gone_closed hg) hyc
    · rw [if_neg hg] at hz
      subst hz
      subst hy
      refine .of_setInbox (b := (x.inbox b.id).close.2)
        (retired_closePort_of_closed h.pending h.ports_nodup ?_ hb)
      rw [inbox_closeBroadcast]
      split
      · rfl
      · exact hyc
  have hd : (z.inbox b.id).discard.2 = ⟨[], true⟩ := by
    rw [Inbox.discard, hret.inbox_closed]
  refine ⟨(hret.setInbox (by rw [hd])).of_core hcore, ?_⟩
  rw [inbox_congr hcore, inbox_setInbox, hd]
  split
  · rfl
  · rename_i hi
    exact z.inbox_of_not_hasInbox _ (by simpa using hi)

theorem closeInboxes_cons (x : Exchange) (p : PortId) (ps : List PortId) :
    x.closeInboxes (p :: ps) = (x.closeInbox p).closeInboxes ps := rfl

theorem settled_closeInboxes (x : Exchange) (ps : List PortId) :
    Settled x (x.closeInboxes ps) := by
  induction ps generalizing x with
  | nil => exact .of_core rfl
  | cons p ps ih => exact (x.settled_setInbox p _).trans (ih _)

theorem inbox_closeInboxes (x : Exchange) (ps : List PortId) (q : PortId) :
    (x.closeInboxes ps).inbox q = if q ∈ ps then (x.inbox q).close.2 else x.inbox q := by
  induction ps generalizing x with
  | nil => simp [closeInboxes]
  | cons p ps ih =>
    have hp : (x.closeInbox p).inbox q = if q = p then (x.inbox q).close.2 else x.inbox q := by
      by_cases hq : q = p
      · subst hq
        rw [closeInbox, inbox_setInbox, if_pos rfl]
        by_cases hi : x.hasInbox q = true
        · rw [if_pos ⟨rfl, hi⟩]
        · rw [if_neg (fun h => hi h.2), x.inbox_of_not_hasInbox q (by simpa using hi)]
          rfl
      · rw [closeInbox, x.inbox_setInbox_ne _ hq, if_neg hq]
    rw [closeInboxes_cons, ih, hp]
    by_cases hq : q = p
    · subst hq
      simp [Inbox.close]
    · simp [hq]

theorem pending_closeInboxes (x : Exchange) (ps : List PortId) :
    (x.closeInboxes ps).pending = x.pending := by
  induction ps generalizing x with
  | nil => rfl
  | cons p ps ih => exact ih _

theorem closed_closeInboxes (x : Exchange) (ps : List PortId) :
    (x.closeInboxes ps).closed = x.closed := by
  induction ps generalizing x with
  | nil => rfl
  | cons p ps ih => exact ih _

theorem shutdown_of_closed (h : x.closed = true) : x.shutdown = x := by
  rw [shutdown, if_pos h]

theorem Down.of_core {y z : Exchange} (h : Down x y) (hc : z.core = y.core) : Down x z :=
  ⟨h.toSettled.trans (.of_core hc), (closed_congr hc).trans h.closed,
    fun q => (ticket?_congr hc q).trans (h.ticket q),
    fun q => (portName?_congr hc q).trans (h.name q),
    fun q => (inbox_congr hc q).trans (h.inbox q), fun k => (slot_congr hc k).trans (h.slot k),
    by rw [pending_congr hc]; exact h.pending, by rw [ports_congr hc]; exact h.ports_nodup⟩

theorem Down.of_core_left {y z : Exchange} (h : Down y z) (hc : y.core = x.core) : Down x z :=
  ⟨(Settled.of_core hc).trans h.toSettled, h.closed, h.ticket, h.name,
    fun q => by rw [h.inbox, inbox_congr hc], fun k => by rw [h.slot, slot_congr hc], h.pending,
    h.ports_nodup⟩

def emptied (x : Exchange) : Exchange :=
  { (({ x with closed := true, pending := x.pending.abandonAll.2 } : Exchange).closeInboxes
    (x.ports.map Prod.fst)) with ports := [] }

theorem core_closeInboxes_wake (x : Exchange) (ws : List Waker) (ps : List PortId) :
    ((x.wake ws).closeInboxes ps).core = (x.closeInboxes ps).core := by
  induction ps generalizing x with
  | nil => rfl
  | cons p ps ih => exact ih (x.closeInbox p)

theorem core_shutdown (h : x.closed = false) : x.shutdown.core = x.emptied.core := by
  have hw := core_closeInboxes_wake { x with closed := true, pending := x.pending.abandonAll.2 }
    x.pending.abandonAll.1 (x.ports.map Prod.fst)
  rw [shutdown, if_neg (by simp [h])]
  dsimp only
  rw [core_note, core_ring]
  exact congrArg (fun c : Core => { c with ports := [] }) hw

theorem down_emptied (h : x.Consistent) : Down x x.emptied := by
  obtain ⟨hs, hw, hl, hj⟩ := Pending.abandonAll_eq h.pending
  let u : Exchange := { x with closed := true, pending := x.pending.abandonAll.2 }
  let ps := x.ports.map Prod.fst
  have hset := u.settled_closeInboxes ps
  have hpend : x.emptied.pending = x.pending.abandonAll.2 := u.pending_closeInboxes ps
  refine ⟨⟨hset.settings, hset.nextPort, ?_, hset.hasInbox, hset.owners, hset.counts⟩,
    u.closed_closeInboxes ps, ?_, fun _ => rfl, ?_, ?_, hpend ▸ hs, List.nodup_nil⟩
  · rw [hpend, hl]
  · intro q
    rw [ticket?, hpend, Pending.ticket?, hw]
    rfl
  · intro q
    refine (u.inbox_closeInboxes ps q).trans ?_
    by_cases hq : q ∈ ps
    · rw [if_pos hq]
      rfl
    · -- a port that is not in the table has a closed inbox already
      have hn : (x.portName? q).isSome = false := by
        rw [← Bool.not_eq_true, portName?, Lookup.lookup_isSome_iff_mem]
        exact hq
      have hc : (x.inbox q).closed = true := by
        have := h.open_iff q
        simp_all
      rw [if_neg hq, Inbox.close, ← hc]
      rfl
  · intro k
    rw [slot, hpend]
    exact hj k

theorem down_shutdown (h : x.Consistent) : Down x x.shutdown := by
  by_cases hc : x.closed = true
  · rw [shutdown_of_closed hc]
    refine ⟨.of_core rfl, hc, h.closed_tickets hc, h.closed_names hc, ?_, ?_, h.pending,
      h.ports_nodup⟩
    · intro q
      have hq : (x.inbox q).closed = true := by
        have := h.open_iff q
        simp_all [h.closed_names hc]
      rw [Inbox.close, ← hq]
    · intro k
      rw [OneShot.abandon_of_isSettled]
      rw [← Bool.not_eq_false, slot, h.pending.unsettled_iff]
      rintro ⟨p, hp⟩
      have hn := h.closed_tickets hc p
      rw [ticket?, hp] at hn
      cases hn
  · exact (down_emptied h).of_core (core_shutdown (by simpa using hc))

end CallExchange.Exchange
