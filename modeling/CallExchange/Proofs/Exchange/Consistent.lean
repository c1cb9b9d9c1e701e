import CallExchange.Proofs.Exchange.Views

set_option autoImplicit false

/-!
# Consistent exchanges

The two tables of an exchange, its inboxes and the slots of its calls stay in step. Each operation
that takes something out of the tables is described once, by what it retires; that consistency is
kept follows from these descriptions.
-/

namespace CallExchange

namespace PortId

/-- How many numbers there are for ports. -/
def supply : Nat := Nat.pow 2 63

theorem toInt_next {p : PortId} (h : p.raw.toInt + 1 < supply) :
    p.next.raw.toInt = p.raw.toInt + 1 := by
  have hle := p.raw.le_toInt
  have hsupply : supply = 0x8000000000000000 := rfl
  change (p.raw + 1).toInt = _
  rw [Int64.toInt_add]
  exact Int.bmod_eq_of_le (by simp; omega) (by simp; omega)

theorem ne_of_toInt_lt {p q : PortId} (h : p.raw.toInt < q.raw.toInt) : p ≠ q := by
  rintro rfl
  omega

end PortId

namespace Exchange

/-- Numbers that have been given to ports, the one for reverse calls included. -/
def Issued (x : Exchange) (p : PortId) : Prop :=
  0 ≤ p.raw.toInt ∧ p.raw.toInt < x.nextPort.raw.toInt

structure Consistent (x : Exchange) : Prop where
  pending : x.pending.Sound
  ports_nodup : (x.ports.map Prod.fst).Nodup
  next_pos : 0 < x.nextPort.raw.toInt
  pending_issued : ∀ p, (x.ticket? p).isSome = true → x.Issued p
  inbox_issued : ∀ p, x.hasInbox p = true → x.Issued p
  /-- A port for one delivery never has an inbox. -/
  pending_hasInbox : ∀ p, (x.ticket? p).isSome = true → x.hasInbox p = false
  reverse_hasInbox : x.hasInbox reversePort = true
  open_iff : ∀ p, (x.portName? p).isSome = !(x.inbox p).closed
  reverse_open : (x.portName? reversePort).isSome = !x.closed
  closed_tickets : x.closed = true → ∀ p, x.ticket? p = none
  closed_names : x.closed = true → ∀ p, x.portName? p = none
  gone_closed : x.isGone = true → x.closed = true

structure Settled (x y : Exchange) : Prop where
  settings : y.settings = x.settings
  nextPort : y.nextPort = x.nextPort
  slots : y.pending.slots.length = x.pending.slots.length
  hasInbox : ∀ p, y.hasInbox p = x.hasInbox p
  owners : y.owners = x.owners
  counts : (y.counters.completed, y.counters.queued, y.counters.dropped) =
    (x.counters.completed, x.counters.queued, x.counters.dropped)

namespace Settled

theorem of_core {x y : Exchange} (h : y.core = x.core) : Settled x y where
  settings := congrArg Core.settings h
  nextPort := nextPort_congr h
  slots := by rw [pending_congr h]
  hasInbox p := by rw [Exchange.hasInbox, Exchange.hasInbox, inboxes_congr h]
  owners := owners_congr h
  counts := congrArg (fun c : Core => (c.completed, c.queued, c.dropped)) h

theorem trans {x y z : Exchange} (h : Settled x y) (h' : Settled y z) : Settled x z where
  settings := h'.settings.trans h.settings
  nextPort := h'.nextPort.trans h.nextPort
  slots := h'.slots.trans h.slots
  hasInbox p := (h'.hasInbox p).trans (h.hasInbox p)
  owners := h'.owners.trans h.owners
  counts := h'.counts.trans h.counts

theorem issued_iff {x y : Exchange} (h : Settled x y) (p : PortId) : y.Issued p ↔ x.Issued p := by
  rw [Issued, Issued, h.nextPort]

end Settled

/-- `p` is retired: its call, if it is one, has been given up, and its inbox takes nothing more. -/
structure Retired (p : PortId) (x y : Exchange) : Prop extends Settled x y where
  closed : y.closed = x.closed
  ticket : ∀ q, y.ticket? q = if q = p then none else x.ticket? q
  name : ∀ q, y.portName? q = if q = p then none else x.portName? q
  inbox_ne : ∀ q, q ≠ p → y.inbox q = x.inbox q
  inbox_closed : (y.inbox p).closed = true
  slot : ∀ k, y.slot k = if x.ticket? p = some k then (x.slot k).abandon.1 else x.slot k
  pending : y.pending.Sound
  ports_nodup : (y.ports.map Prod.fst).Nodup

structure Down (x y : Exchange) : Prop extends Settled x y where
  closed : y.closed = true
  ticket : ∀ q, y.ticket? q = none
  name : ∀ q, y.portName? q = none
  inbox : ∀ q, y.inbox q = (x.inbox q).close.2
  slot : ∀ k, y.slot k = (x.slot k).abandon.1
  pending : y.pending.Sound
  ports_nodup : (y.ports.map Prod.fst).Nodup

namespace Consistent

variable {x y : Exchange} {p : PortId} {k : Ticket}

theorem congr (h : x.Consistent) (hn : y.nextPort = x.nextPort) (hp : y.pending = x.pending)
    (ho : y.ports = x.ports) (hi : y.inboxes = x.inboxes) (hc : y.closed = x.closed)
    (hg : y.isGone = true → x.isGone = true) : y.Consistent where
  pending := hp ▸ h.pending
  ports_nodup := ho ▸ h.ports_nodup
  next_pos := hn ▸ h.next_pos
  pending_issued p := by
    simp only [ticket?, Issued, hp, hn]
    exact h.pending_issued p
  inbox_issued p := by
    simp only [hasInbox, Issued, hi, hn]
    exact h.inbox_issued p
  pending_hasInbox p := by
    simp only [ticket?, hasInbox, hp, hi]
    exact h.pending_hasInbox p
  reverse_hasInbox := by
    simp only [hasInbox, hi]
    exact h.reverse_hasInbox
  open_iff p := by
    simp only [portName?, inbox, ho, hi]
    exact h.open_iff p
  reverse_open := by
    simp only [portName?, ho, hc]
    exact h.reverse_open
  closed_tickets := by
    simp only [ticket?, hp, hc]
    exact h.closed_tickets
  closed_names := by
    simp only [portName?, ho, hc]
    exact h.closed_names
  gone_closed hy := by
    rw [hc]
    exact h.gone_closed (hg hy)

theorem of_core (h : x.Consistent) (hc : y.core = x.core) : y.Consistent :=
  h.congr (nextPort_congr hc) (pending_congr hc) (ports_congr hc) (inboxes_congr hc)
    (closed_congr hc) (by rw [isGone, isGone, owners_congr hc]; exact id)

theorem next_ne_reverse (h : x.Consistent) : x.nextPort ≠ reversePort :=
  (PortId.ne_of_toInt_lt (p := reversePort) h.next_pos).symm

theorem name_of_pending (h : x.Consistent) (hp : (x.ticket? p).isSome = true) :
    x.portName? p = none := by
  have hb := x.inbox_of_not_hasInbox p (h.pending_hasInbox p hp)
  have ho := h.open_iff p
  rw [hb] at ho
  simpa using ho

theorem hasInbox_of_name (h : x.Consistent) (hp : (x.portName? p).isSome = true) :
    x.hasInbox p = true := by
  apply hasInbox_of_open
  rw [h.open_iff p] at hp
  simpa using hp

theorem reverse_not_pending (h : x.Consistent) : x.ticket? reversePort = none := by
  by_contra hp
  have := h.pending_hasInbox _ (by simpa [Option.isSome_iff_ne_none] using hp)
  rw [h.reverse_hasInbox] at this
  cases this

theorem waiting_nil (h : x.Consistent) (hc : x.closed = true) : x.pending.waiting = [] := by
  cases hw : x.pending.waiting with
  | nil => rfl
  | cons e es =>
    have hp := h.closed_tickets hc e.1
    rw [ticket?, Pending.ticket?, hw, List.lookup_cons_self] at hp
    cases hp

theorem ports_nil (h : x.Consistent) (hc : x.closed = true) : x.ports = [] := by
  cases hw : x.ports with
  | nil => rfl
  | cons e es =>
    have hp := h.closed_names hc e.1
    rw [portName?, hw, List.lookup_cons_self] at hp
    cases hp

theorem retired (h : x.Consistent) (hp : p ≠ reversePort) (hy : Retired p x y) :
    y.Consistent where
  pending := hy.pending
  ports_nodup := hy.ports_nodup
  next_pos := hy.nextPort ▸ h.next_pos
  pending_issued q hq := by
    rw [hy.ticket] at hq
    rw [hy.issued_iff]
    split at hq
    · cases hq
    · exact h.pending_issued q hq
  inbox_issued q hq := by
    rw [hy.hasInbox] at hq
    exact (hy.issued_iff q).2 (h.inbox_issued q hq)
  pending_hasInbox q hq := by
    rw [hy.ticket] at hq
    rw [hy.hasInbox]
    split at hq
    · cases hq
    · exact h.pending_hasInbox q hq
  reverse_hasInbox := (hy.hasInbox _).trans h.reverse_hasInbox
  open_iff q := by
    by_cases hq : q = p
    · subst hq
      rw [hy.name, if_pos rfl, hy.inbox_closed]
      rfl
    · rw [hy.name, if_neg hq, hy.inbox_ne q hq]
      exact h.open_iff q
  reverse_open := by
    rw [hy.name, if_neg hp.symm, hy.closed]
    exact h.reverse_open
  closed_tickets hc q := by
    rw [hy.ticket, h.closed_tickets (hy.closed ▸ hc), ite_self]
  closed_names hc q := by
    rw [hy.name, h.closed_names (hy.closed ▸ hc), ite_self]
  gone_closed hg := by
    rw [hy.closed]
    exact h.gone_closed (by simpa [isGone, hy.owners] using hg)

theorem down (h : x.Consistent) (hy : Down x y) : y.Consistent where
  pending := hy.pending
  ports_nodup := hy.ports_nodup
  next_pos := hy.nextPort ▸ h.next_pos
  pending_issued q hq := by
    rw [hy.ticket] at hq
    cases hq
  inbox_issued q hq := by
    rw [hy.hasInbox] at hq
    exact (hy.issued_iff q).2 (h.inbox_issued q hq)
  pending_hasInbox q hq := by
    rw [hy.ticket] at hq
    cases hq
  reverse_hasInbox := (hy.hasInbox _).trans h.reverse_hasInbox
  open_iff q := by
    rw [hy.name, hy.inbox]
    rfl
  reverse_open := by
    rw [hy.name, hy.closed]
    rfl
  closed_tickets _ := hy.ticket
  closed_names _ := hy.name
  gone_closed _ := hy.closed

end Consistent

section Create

variable {s : Settings} {x : Exchange}

theorem create_eq (h : create s = .ok x) : s.check = .ok () ∧ x =
    { settings := s
      nextPort := reversePort.next
      pending := .empty s.maxPending
      ports := [(reversePort, s.reverseName)]
      inboxes := [(reversePort, .empty)]
      names := .empty
      callbacks := .empty
      notifier := .ofKind s.notifier
      counters := .zero
      closed := false
      owners := 1
      journal := [.exchangeUp s.notifier.name s.maxPending reversePort]
      woken := []
      bufferUses := [] } := by
  rw [create] at h
  cases hc : s.check with
  | error f =>
    rw [hc] at h
    cases h
  | ok u =>
    rw [hc] at h
    cases h
    exact ⟨rfl, rfl⟩

theorem toInt_first : reversePort.next.raw.toInt = 1 := by decide

theorem nextPort_create (h : create s = .ok x) : x.nextPort = reversePort.next := by
  obtain ⟨-, rfl⟩ := create_eq h
  rfl

theorem consistent_create (h : create s = .ok x) : x.Consistent := by
  obtain ⟨-, rfl⟩ := create_eq h
  have hpos : 0 < reversePort.next.raw.toInt := by
    rw [toInt_first]
    decide
  refine ⟨Pending.empty_sound _, List.nodup_singleton _, hpos, ?_, ?_, ?_, rfl, ?_, rfl, ?_, ?_, ?_⟩
  · intro p hp
    cases hp
  · intro p hp
    have hrev : p = reversePort := by
      by_contra hne
      simp [hasInbox, List.lookup_cons, beq_false_of_ne hne] at hp
    rw [hrev]
    exact ⟨Int.le_refl 0, hpos⟩
  · intro p hp
    cases hp
  · intro p
    by_cases hp : p = reversePort
    · subst hp
      rfl
    · simp [portName?, inbox, List.lookup_cons, beq_false_of_ne hp]
  · intro hc
    cases hc
  · intro hc
    cases hc
  · intro hg
    cases hg

end Create

end Exchange

end CallExchange
