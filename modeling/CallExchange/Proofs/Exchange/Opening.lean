import CallExchange.Proofs.Exchange.Closing

set_option autoImplicit false

/-!
# Opening, posting, reading and owning

The remaining operations on ports, each with what it does to the views, and why it keeps an
exchange consistent. A new port needs a number that is not used up.
-/

namespace CallExchange.Exchange

variable {x y : Exchange} {p : PortId}

def HasRoom (x : Exchange) : Prop := x.nextPort.raw.toInt + 1 < PortId.supply

theorem not_issued_next (x : Exchange) : ¬ x.Issued x.nextPort := by
  intro hi
  exact absurd hi.2 (by omega)

theorem Consistent.next_unused (h : x.Consistent) :
    x.ticket? x.nextPort = none ∧ x.hasInbox x.nextPort = false ∧
      x.portName? x.nextPort = none := by
  have hn := x.not_issued_next
  have hi : x.hasInbox x.nextPort = false := by
    by_contra hc
    exact hn (h.inbox_issued _ (by simpa using hc))
  refine ⟨?_, hi, ?_⟩
  · by_contra hc
    exact hn (h.pending_issued _ (Option.isSome_iff_ne_none.2 hc))
  · by_contra hc
    rw [h.hasInbox_of_name (Option.isSome_iff_ne_none.2 hc)] at hi
    cases hi

theorem issued_next (hr : x.HasRoom) (hn : y.nextPort = x.nextPort.next) {q : PortId}
    (hq : x.Issued q) : y.Issued q := by
  rw [Issued, hn, PortId.toInt_next hr]
  exact ⟨hq.1, by have := hq.2; omega⟩

theorem issued_new (h : x.Consistent) (hr : x.HasRoom) (hn : y.nextPort = x.nextPort.next) :
    y.Issued x.nextPort := by
  rw [Issued, hn, PortId.toInt_next hr]
  exact ⟨by have := h.next_pos; omega, by omega⟩

/-- Opening a port for one delivery is refused at once, or after the number was taken, or it
registers the number. -/
inductive OpenedSingle (x : Exchange) : Except Fault (PortId × Ticket) → Exchange → Prop where
  | closed (hx : x.closed = true) : OpenedSingle x (.error .closed) x
  | refused (f : Fault) (hx : x.closed = false) (hr : x.pending.register x.nextPort = .error f) :
      OpenedSingle x (.error f) { x with nextPort := x.nextPort.next }
  | opened (k : Ticket) (r : Pending) (hx : x.closed = false)
      (hr : x.pending.register x.nextPort = .ok (k, r)) :
      OpenedSingle x (.ok (x.nextPort, k)) { x with nextPort := x.nextPort.next, pending := r }

theorem openSingle_opened (x : Exchange) : OpenedSingle x x.openSingle.1 x.openSingle.2 := by
  unfold openSingle
  by_cases hx : x.closed = true
  · rw [if_pos hx]
    exact .closed hx
  · rw [if_neg hx]
    dsimp only [allocate]
    cases hr : x.pending.register x.nextPort with
    | error f => exact .refused f (by simpa using hx) hr
    | ok a => exact .opened a.1 a.2 (by simpa using hx) hr

theorem OpenedSingle.ok {k : Ticket} (ho : OpenedSingle x (.ok (p, k)) y) :
    p = x.nextPort ∧ k = x.pending.slots.length ∧ x.closed = false ∧
      ∃ r, x.pending.register p = .ok (k, r) ∧ r.slots.length = x.pending.slots.length + 1 ∧
        y = { x with nextPort := x.nextPort.next, pending := r } := by
  cases ho with
  | opened k r hx hr =>
    exact ⟨rfl, (Pending.register_eq_ok hr).2.2.1, hx, r, hr, Pending.slots_register_length hr, rfl⟩

theorem openSingle_ok {k : Ticket} (h : x.openSingle.1 = .ok (p, k)) :
    p = x.nextPort ∧ k = x.pending.slots.length ∧ x.closed = false ∧
      ∃ r, x.pending.register p = .ok (k, r) ∧ r.slots.length = x.pending.slots.length + 1 ∧
        x.openSingle.2 = { x with nextPort := x.nextPort.next, pending := r } := by
  have ho := x.openSingle_opened
  rw [h] at ho
  exact ho.ok

theorem OpenedSingle.ne_duplicate (h : x.Consistent) {a : Except Fault (PortId × Ticket)}
    (ho : OpenedSingle x a y) (q : PortId) : a ≠ .error (.duplicatePort q) := by
  intro he
  cases ho with
  | closed hx => cases he
  | opened k r hx hr => cases he
  | refused f hx hr =>
    cases he
    rw [Pending.register] at hr
    split at hr
    · cases hr
    · split at hr
      · rename_i hc
        rw [Pending.contains_eq] at hc
        have hn := h.next_unused.1
        rw [ticket?] at hn
        rw [hn] at hc
        cases hc
      · cases hr

theorem consistent_allocate (h : x.Consistent) (hr : x.HasRoom) :
    ({ x with nextPort := x.nextPort.next } : Exchange).Consistent :=
  { h with
    next_pos := by
      have := h.next_pos
      simp only [PortId.toInt_next hr]
      omega
    pending_issued := fun p hp => issued_next hr rfl (h.pending_issued p hp)
    inbox_issued := fun p hp => issued_next hr rfl (h.inbox_issued p hp) }

theorem OpenedSingle.consistent (h : x.Consistent) (hr : x.HasRoom)
    {a : Except Fault (PortId × Ticket)} (ho : OpenedSingle x a y) : y.Consistent := by
  cases ho with
  | closed hx => exact h
  | refused f hx hreg => exact consistent_allocate h hr
  | opened k r hx hreg =>
    have ha := consistent_allocate h hr
    have hticket := Pending.ticket?_register hreg
    refine { ha with
      pending := h.pending.register hreg
      pending_issued := ?_
      pending_hasInbox := ?_
      closed_tickets := fun hc => absurd hc (by simp [hx]) }
    · intro q hq
      rw [ticket?, hticket] at hq
      split at hq
      · rename_i he
        rw [he]
        exact issued_new h hr rfl
      · exact ha.pending_issued q hq
    · intro q hq
      rw [ticket?, hticket] at hq
      split at hq
      · rename_i he
        rw [he]
        exact h.next_unused.2.1
      · exact ha.pending_hasInbox q hq

inductive OpenedBroadcast (x : Exchange) (task : String) :
    Except Fault Broadcast → Exchange → Prop where
  | closed (hx : x.closed = true) : OpenedBroadcast x task (.error .closed) x
  | opened (name : String) (y : Exchange) (hx : x.closed = false) (hn : (x.names.next task).1 = name)
      (hy : y.core = { x.core with
        nextPort := x.nextPort.next
        names := (x.names.next task).2
        ports := x.ports ++ [(x.nextPort, name)]
        inboxes := x.inboxes ++ [(x.nextPort, .empty)] }) :
      OpenedBroadcast x task (.ok ⟨x.nextPort, name⟩) y

theorem openBroadcast_opened (x : Exchange) (task : String) :
    OpenedBroadcast x task (x.openBroadcast task).1 (x.openBroadcast task).2 := by
  unfold openBroadcast
  by_cases hx : x.closed = true
  · rw [if_pos hx]
    exact .closed hx
  · rw [if_neg hx]
    exact .opened _ _ (by simpa using hx) rfl rfl

theorem OpenedBroadcast.ok {task : String} {b : Broadcast} (ho : OpenedBroadcast x task (.ok b) y) :
    b.id = x.nextPort ∧ x.closed = false ∧ y.core = { x.core with
      nextPort := x.nextPort.next
      names := (x.names.next task).2
      ports := x.ports ++ [(x.nextPort, b.name)]
      inboxes := x.inboxes ++ [(x.nextPort, .empty)] } := by
  cases ho with
  | opened name y hx hn hy => exact ⟨rfl, hx, hy⟩

theorem openBroadcast_ok {task : String} {b : Broadcast} (h : (x.openBroadcast task).1 = .ok b) :
    b.id = x.nextPort ∧ x.closed = false ∧
      (x.openBroadcast task).2.core = { x.core with
        nextPort := x.nextPort.next
        names := (x.names.next task).2
        ports := x.ports ++ [(x.nextPort, b.name)]
        inboxes := x.inboxes ++ [(x.nextPort, .empty)] } := by
  have ho := x.openBroadcast_opened task
  rw [h] at ho
  exact ho.ok

section OpenedBroadcast

variable {name : String}

theorem portName?_opened (h : x.Consistent)
    (hy : y.ports = x.ports ++ [(x.nextPort, name)]) (q : PortId) :
    y.portName? q = if q = x.nextPort then some name else x.portName? q := by
  rw [portName?, hy, Lookup.lookup_concat]
  by_cases hq : q = x.nextPort
  · subst hq
    rw [show x.ports.lookup x.nextPort = none from h.next_unused.2.2]
    simp
  · simp [hq, portName?]

theorem inbox_opened (h : x.Consistent)
    (hy : y.inboxes = x.inboxes ++ [(x.nextPort, .empty)]) (q : PortId) :
    y.inbox q = if q = x.nextPort then .empty else x.inbox q := by
  have hn := h.next_unused.2.1
  rw [hasInbox, Option.isSome_eq_false_iff, Option.isNone_iff_eq_none] at hn
  rw [inbox, hy, Lookup.lookup_concat]
  by_cases hq : q = x.nextPort
  · subst hq
    simp [hn]
  · simp [hq, inbox]

theorem hasInbox_opened (hy : y.inboxes = x.inboxes ++ [(x.nextPort, .empty)]) (q : PortId) :
    y.hasInbox q = (x.hasInbox q || decide (q = x.nextPort)) := by
  rw [hasInbox, hy, Lookup.lookup_concat, Option.isSome_or, hasInbox]
  by_cases hq : q = x.nextPort <;> simp [hq]

end OpenedBroadcast

theorem hasInbox_openBroadcast {task : String} {b : Broadcast}
    (h : (x.openBroadcast task).1 = .ok b) (hy : y.core = (x.openBroadcast task).2.core) :
    y.hasInbox b.id = true := by
  obtain ⟨hid, -, hcore⟩ := openBroadcast_ok h
  rw [hasInbox_opened (congrArg Core.inboxes (hy.trans hcore)), hid, decide_eq_true rfl,
    Bool.or_true]

theorem inbox_openBroadcast (hx : x.Consistent) {task : String} {b : Broadcast}
    (h : (x.openBroadcast task).1 = .ok b) (hy : y.core = (x.openBroadcast task).2.core) :
    y.inbox b.id = .empty := by
  obtain ⟨hid, -, hcore⟩ := openBroadcast_ok h
  rw [inbox_opened hx (congrArg Core.inboxes (hy.trans hcore)), if_pos hid]

theorem consistent_opened (h : x.Consistent) (hr : x.HasRoom) {name : String} {names : PortNames}
    (hx : x.closed = false) (hy : y.core = { x.core with
      nextPort := x.nextPort.next
      names := names
      ports := x.ports ++ [(x.nextPort, name)]
      inboxes := x.inboxes ++ [(x.nextPort, .empty)] }) : y.Consistent := by
  have hports : y.ports = x.ports ++ [(x.nextPort, name)] := congrArg Core.ports hy
  have hinboxes : y.inboxes = x.inboxes ++ [(x.nextPort, .empty)] := congrArg Core.inboxes hy
  have hpend : y.pending = x.pending := congrArg Core.pending hy
  have hnext : y.nextPort = x.nextPort.next := congrArg Core.nextPort hy
  have hclosed : y.closed = x.closed := congrArg Core.closed hy
  have howners : y.owners = x.owners := congrArg Core.owners hy
  have hname := portName?_opened h hports
  have hhas := hasInbox_opened hinboxes
  have hticket : ∀ q, y.ticket? q = x.ticket? q := fun q => by rw [ticket?, ticket?, hpend]
  have hopen : y.closed ≠ true := by
    rw [hclosed, hx]
    exact Bool.false_ne_true
  exact
    { pending := hpend ▸ h.pending
      ports_nodup := by
        rw [hports]
        exact Lookup.nodup_keys_concat h.ports_nodup _ h.next_unused.2.2
      next_pos := by
        have := h.next_pos
        rw [hnext, PortId.toInt_next hr]
        omega
      pending_issued q hq := issued_next hr hnext (h.pending_issued q (hticket q ▸ hq))
      inbox_issued q hq := by
        rw [hhas, Bool.or_eq_true] at hq
        rcases hq with hq | hq
        · exact issued_next hr hnext (h.inbox_issued q hq)
        · rw [of_decide_eq_true hq]
          exact issued_new h hr hnext
      pending_hasInbox q hq := by
        rw [hticket] at hq
        have hne : q ≠ x.nextPort := by
          rintro rfl
          rw [h.next_unused.1] at hq
          cases hq
        rw [hhas, h.pending_hasInbox q hq]
        simp [hne]
      reverse_hasInbox := by
        rw [hhas, h.reverse_hasInbox]
        rfl
      open_iff q := by
        rw [hname, inbox_opened h hinboxes]
        by_cases hq : q = x.nextPort
        · rw [if_pos hq, if_pos hq]
          rfl
        · rw [if_neg hq, if_neg hq]
          exact h.open_iff q
      reverse_open := by
        rw [hname, if_neg h.next_ne_reverse.symm, hclosed]
        exact h.reverse_open
      closed_tickets hc := absurd hc hopen
      closed_names hc := absurd hc hopen
      gone_closed hg := by
        rw [hclosed]
        apply h.gone_closed
        rwa [isGone, howners] at hg }

theorem OpenedBroadcast.consistent (h : x.Consistent) (hr : x.HasRoom) {task : String}
    {a : Except Fault Broadcast} (ho : OpenedBroadcast x task a y) : y.Consistent := by
  cases ho with
  | closed hx => exact h
  | opened name y hx hn hy => exact consistent_opened h hr hx hy

theorem consistent_setInbox (h : x.Consistent) {b : Inbox} (hb : b.closed = (x.inbox p).closed) :
    (x.setInbox p b).Consistent :=
  { h with
    inbox_issued := by
      intro q hq
      rw [hasInbox_setInbox] at hq
      exact h.inbox_issued q hq
    pending_hasInbox := by
      intro q hq
      rw [hasInbox_setInbox]
      exact h.pending_hasInbox q hq
    reverse_hasInbox := (x.hasInbox_setInbox p _ b).trans h.reverse_hasInbox
    open_iff := by
      intro q
      rw [inbox_setInbox]
      split
      · rename_i hq
        rw [hb, ← hq.1]
        exact h.open_iff q
      · exact h.open_iff q }

theorem consistent_setSlot (h : x.Consistent) {k : Ticket} {s : OneShot Value}
    (hs : s.isSettled = (x.slot k).isSettled) : (x.setSlot k s).Consistent :=
  { h with pending := h.pending.setSlot hs }

theorem consistent_hold (h : x.Consistent) : x.hold.Consistent :=
  h.congr rfl rfl rfl rfl rfl (by intro hg; simp [isGone, hold] at hg)

theorem consistent_release (h : x.Consistent) : x.release.Consistent := by
  unfold release
  split
  · exact h
  · have hd := down_shutdown h
    exact { h.down hd with gone_closed := fun _ => hd.closed }
  · exact h.congr rfl rfl rfl rfl rfl (by intro hg; simp [isGone] at hg)

theorem Posted.consistent (h : x.Consistent) {v : Value} {d : Delivery} (hp : Posted x p v d y) :
    y.Consistent := by
  cases hp with
  | completed w r hx hr =>
    have hticket := Pending.ticket?_retire hr
    have hz : ({ x with pending := r } : Exchange).Consistent := { h with
      pending := h.pending.retire (OneShot.isSettled_complete v) hr
      pending_issued := by
        intro q hq
        rw [ticket?, hticket] at hq
        split at hq
        · cases hq
        · exact h.pending_issued q hq
      pending_hasInbox := by
        intro q hq
        rw [ticket?, hticket] at hq
        split at hq
        · cases hq
        · exact h.pending_hasInbox q hq
      closed_tickets := fun hc => absurd hc (by simp [hx]) }
    refine Consistent.of_core ?_ (core_ring _)
    exact hz.congr rfl rfl rfl rfl rfl id
  | queued hx ht hn hb =>
    refine Consistent.of_core ?_ (core_ring _)
    have hz : (x.setInbox p ((x.inbox p).push v).2).Consistent := by
      apply consistent_setInbox h
      rw [Inbox.push, hb]
      rfl
    exact hz.congr rfl rfl rfl rfl rfl id
  | dropped why hd =>
    refine Consistent.of_core ?_ (core_drop x p why)
    exact h.congr rfl rfl rfl rfl rfl id

end CallExchange.Exchange
