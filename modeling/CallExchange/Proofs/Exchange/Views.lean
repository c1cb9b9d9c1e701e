import CallExchange.Exchange.Lifetime
import CallExchange.Proofs.Pending

set_option autoImplicit false

/-!
# Views of an exchange

What is left of an exchange without its log, its counters of calls, its notifier and its callbacks
is its core. Each operation is described by what it does to the core: to the next number, to the
ticket, the name and the inbox of every port, and to the slot of every ticket.
-/

namespace CallExchange

namespace Exchange

/-- All that decides what becomes of a delivery, with the counts of deliveries. -/
structure Core where
  settings : Settings
  nextPort : PortId
  pending : Pending
  ports : List (PortId × String)
  inboxes : List (PortId × Inbox)
  names : PortNames
  closed : Bool
  owners : Nat
  completed : UInt64
  queued : UInt64
  dropped : UInt64

def core (x : Exchange) : Core :=
  ⟨x.settings, x.nextPort, x.pending, x.ports, x.inboxes, x.names, x.closed, x.owners,
    x.counters.completed, x.counters.queued, x.counters.dropped⟩

def ticket? (x : Exchange) (p : PortId) : Option Ticket := x.pending.ticket? p
def slot (x : Exchange) (k : Ticket) : OneShot Value := x.pending.slot k

def hasInbox (x : Exchange) (p : PortId) : Bool := (x.inboxes.lookup p).isSome

@[simp] theorem core_note (x : Exchange) (n : Notice) : (x.note n).core = x.core := rfl

@[simp] theorem core_ring (x : Exchange) : x.ring.core = x.core := by
  unfold ring
  split <;> rfl

section Congr

variable {x y : Exchange}

theorem nextPort_congr (h : y.core = x.core) : y.nextPort = x.nextPort := congrArg Core.nextPort h
theorem pending_congr (h : y.core = x.core) : y.pending = x.pending := congrArg Core.pending h
theorem ports_congr (h : y.core = x.core) : y.ports = x.ports := congrArg Core.ports h
theorem inboxes_congr (h : y.core = x.core) : y.inboxes = x.inboxes := congrArg Core.inboxes h
theorem closed_congr (h : y.core = x.core) : y.closed = x.closed := congrArg Core.closed h
theorem owners_congr (h : y.core = x.core) : y.owners = x.owners := congrArg Core.owners h

theorem portName?_congr (h : y.core = x.core) (p : PortId) : y.portName? p = x.portName? p := by
  rw [portName?, portName?, ports_congr h]

theorem inbox_congr (h : y.core = x.core) (p : PortId) : y.inbox p = x.inbox p := by
  rw [inbox, inbox, inboxes_congr h]

theorem ticket?_congr (h : y.core = x.core) (p : PortId) : y.ticket? p = x.ticket? p := by
  rw [ticket?, ticket?, pending_congr h]

theorem slot_congr (h : y.core = x.core) (k : Ticket) : y.slot k = x.slot k := by
  rw [slot, slot, pending_congr h]

end Congr

theorem isOpen_eq (x : Exchange) (p : PortId) :
    x.isOpen p = ((x.ticket? p).isSome || (x.portName? p).isSome) := by
  rw [isOpen, Pending.contains_eq]
  rfl

theorem inbox_setInbox (x : Exchange) (p q : PortId) (b : Inbox) :
    (x.setInbox p b).inbox q = if q = p ∧ x.hasInbox p then b else x.inbox q := by
  simp only [inbox, setInbox, hasInbox, Lookup.lookup_with]
  by_cases hq : q = p
  · subst hq
    simp only [if_true, true_and]
    cases x.inboxes.lookup q <;> rfl
  · simp [hq]

theorem inbox_setInbox_ne (x : Exchange) {p q : PortId} (b : Inbox) (h : q ≠ p) :
    (x.setInbox p b).inbox q = x.inbox q := by
  rw [inbox_setInbox, if_neg (fun hq => h hq.1)]

theorem hasInbox_setInbox (x : Exchange) (p q : PortId) (b : Inbox) :
    (x.setInbox p b).hasInbox q = x.hasInbox q := by
  simp only [hasInbox, setInbox, Lookup.lookup_with]
  by_cases hq : q = p
  · subst hq
    cases h : x.inboxes.lookup q <;> simp
  · simp [hq]

theorem inbox_of_not_hasInbox (x : Exchange) (p : PortId) (h : x.hasInbox p = false) :
    x.inbox p = ⟨[], true⟩ := by
  rw [hasInbox, Option.isSome_eq_false_iff, Option.isNone_iff_eq_none] at h
  rw [inbox, h]
  rfl

theorem hasInbox_of_open (x : Exchange) (p : PortId) (h : (x.inbox p).closed = false) :
    x.hasInbox p = true := by
  by_contra hn
  rw [x.inbox_of_not_hasInbox p (by simpa using hn)] at h
  cases h

inductive Posted (x : Exchange) (p : PortId) (v : Value) : Delivery → Exchange → Prop where
  | completed (w : Option Waker) (r : Pending) (hx : x.closed = false)
      (hr : x.pending.resolve? p v = some (w, r)) :
      Posted x p v .completed
        ((({ x with pending := r }.wake w.toList).record .completed).ring)
  | queued (hx : x.closed = false) (ht : x.ticket? p = none)
      (hp : (x.portName? p).isSome = true) (hb : (x.inbox p).closed = false) :
      Posted x p v .queued
        (((x.setInbox p ((x.inbox p).push v).2).record .queued).ring)
  | dropped (why : DropReason)
      (h : x.closed = true ∨
        x.ticket? p = none ∧ ((x.portName? p).isSome = false ∨ (x.inbox p).closed = true)) :
      Posted x p v .dropped (x.drop p why)

theorem post_posted (x : Exchange) (p : PortId) (v : Value) :
    Posted x p v (x.post p v).1 (x.post p v).2 := by
  unfold post
  by_cases hx : x.closed = true
  · rw [if_pos hx]
    exact .dropped _ (.inl hx)
  · have hx' : x.closed = false := by simpa using hx
    rw [if_neg hx]
    cases hr : x.pending.resolve? p v with
    | some a => exact .completed a.1 a.2 hx' hr
    | none =>
      have ht : x.ticket? p = none := Pending.retire?_eq_none_iff.1 hr
      cases hn : x.portName? p with
      | none =>
        simp only [enqueue?, hn]
        exact .dropped _ (.inr ⟨ht, .inl (by rw [hn]; rfl)⟩)
      | some name =>
        simp only [enqueue?, hn]
        cases hb : (x.inbox p).closed with
        | true =>
          have hpush : (x.inbox p).push v = (false, x.inbox p) := by simp [Inbox.push, hb]
          simp only [hpush]
          exact .dropped _ (.inr ⟨ht, .inr hb⟩)
        | false =>
          have hpush : (x.inbox p).push v = (true, ((x.inbox p).push v).2) := by
            simp [Inbox.push, hb]
          rw [hpush]
          exact .queued hx' ht (by rw [hn]; rfl) hb

theorem core_drop (x : Exchange) (p : PortId) (why : DropReason) :
    (x.drop p why).core = (x.record .dropped).core := by
  unfold drop
  dsimp only
  split <;> rfl

end Exchange

end CallExchange
