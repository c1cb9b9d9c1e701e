import CallExchange.Proofs.Exchange.Runs

set_option autoImplicit false

/-!
# What operations change

The slot of a ticket and the inbox of a port change in a few ways only, each by operations of one
kind. What never comes back follows from that: a port that was shut, a closed exchange, and a value
that was given up or taken.
-/

namespace CallExchange

namespace OneShot

variable {α : Type} {s : OneShot α}

theorem abandon_of_unsettled (h : s.isSettled = false) : s.abandon.1 = .abandoned := by
  cases s with
  | pending w => rfl
  | _ => cases h

theorem Read.run_snd (r : Read) (s : OneShot α) :
    (r.run s).2 = s ∨ (r.run s).2 = s.take.2 ∨ ∃ w, (r.run s).2 = (s.poll w).2 := by
  cases r with
  | isSettled | drop => exact .inl rfl
  | tryTake | wait => cases s <;> exact .inr (.inl rfl)
  | poll w => exact .inr (.inr ⟨w, by cases s <;> rfl⟩)
  | waitTimeout t =>
    simp only [run, takeWithin]
    by_cases ht : t.noDeadline = true
    · rw [if_pos ht]
      exact .inl rfl
    · rw [if_neg ht]
      cases s <;> exact .inr (.inl rfl)

theorem Read.ready_of_run {r : Read} {v : α} (h : (r.run s).2 = .ready v) : s = .ready v := by
  rcases r.run_snd s with he | he | ⟨w, he⟩ <;> rw [he] at h <;> cases s <;> cases h
  rfl

theorem Read.run_settled (r : Read) (h : s.isSettled = true) :
    (r.run s).2 = s ∨ (∃ v, s = .ready v) ∧ (r.run s).2 = .taken := by
  have htake : (r.run s).2 = s.take.2 →
      (r.run s).2 = s ∨ (∃ v, s = .ready v) ∧ (r.run s).2 = .taken := by
    intro he
    cases s with
    | pending w => cases h
    | ready v => exact .inr ⟨⟨v, rfl⟩, he⟩
    | taken | abandoned => exact .inl he
  rcases r.run_snd s with he | he | ⟨w, he⟩
  · exact .inl he
  · exact htake he
  · rw [take_of_isSettled s h w] at he
    exact htake he

end OneShot

namespace Exchange

variable {x y z : Exchange} {p : PortId} {k : Ticket} {o : Op} {ops : List Op}

/-- What becomes of the slot of `k` in one operation. -/
inductive SlotChange (x : Exchange) (k : Ticket) : Op → OneShot Value → Prop where
  | same (o : Op) : SlotChange x k o (x.slot k)
  | issued (hx : x.closed = false) (hk : k = x.pending.slots.length) :
      SlotChange x k .openSingle .fresh
  | completed (p : PortId) (v : Value) (ht : x.ticket? p = some k) :
      SlotChange x k (.post p v) (.ready v)
  | givenUp (o : Op) (ho : o.isPost = false) (hs : (x.slot k).isSettled = false) :
      SlotChange x k o .abandoned
  | read (r : OneShot.Read) : SlotChange x k (.read k r) (r.run (x.slot k)).2

theorem SlotChange.abandon (ho : o.isPost = false) : SlotChange x k o (x.slot k).abandon.1 := by
  cases hs : (x.slot k).isSettled with
  | true =>
    rw [OneShot.abandon_of_isSettled _ hs]
    exact .same o
  | false =>
    rw [OneShot.abandon_of_unsettled hs]
    exact .givenUp o ho hs

theorem Retired.slotChange (h : Retired p x y) (ho : o.isPost = false) :
    SlotChange x k o (y.slot k) := by
  rw [h.slot]
  split
  · exact .abandon ho
  · exact .same o

theorem OpenedSingle.slotChange {a : Except Fault (PortId × Ticket)} (ho : OpenedSingle x a y) :
    SlotChange x k .openSingle (y.slot k) := by
  cases ho with
  | closed hx => exact .same _
  | refused f hx hr => exact .same _
  | opened j r hx hr =>
    have hj := (Pending.register_eq_ok hr).2.2.1
    rw [slot, Pending.slot_register hr]
    split
    · rename_i hk
      exact .issued hx (hk.trans hj)
    · exact .same _

theorem Posted.slotChange (h : x.Consistent) {v : Value} {d : Delivery} (hp : Posted x p v d y) :
    SlotChange x k (.post p v) (y.slot k) := by
  by_cases hk : x.ticket? p = some k
  · have heff : d = .completed → y.slot k = .ready v := by
      rintro rfl
      cases hp with
      | completed w r hx hr =>
        rw [slot_congr (core_ring _)]
        have hslot := Pending.slot_retire h.pending hr hk k
        rw [if_pos rfl] at hslot
        refine hslot.trans ?_
        have hopen := h.pending.unsettled hk
        cases hs : x.pending.slot k with
        | pending w => rfl
        | _ =>
          rw [hs] at hopen
          cases hopen
    cases hd : d with
    | completed =>
      rw [heff hd]
      exact .completed p v hk
    | queued =>
      subst hd
      cases hp with
      | queued hx ht hn hb =>
        rw [ht] at hk
        cases hk
    | dropped =>
      subst hd
      cases hp with
      | dropped why hd =>
        rcases hd with hc | ⟨ht, -⟩
        · rw [h.closed_tickets hc] at hk
          cases hk
        · rw [ht] at hk
          cases hk
  · rw [hp.slot_eq hk]
    exact .same _

theorem Op.slotChange (h : x.Consistent) (o : Op) (ho : o.Lawful x) (k : Ticket) :
    SlotChange x k o ((o.exec x).slot k) := by
  cases o with
  | openSingle => exact x.openSingle_opened.slotChange
  | openBroadcast task =>
    have hslot : (x.openBroadcast task).2.slot k = x.slot k := by
      unfold Exchange.openBroadcast
      split <;> rfl
    change SlotChange x k _ ((x.openBroadcast task).2.slot k)
    rw [hslot]
    exact .same _
  | post p v => exact (x.post_posted p v).slotChange h
  | closePort p =>
    by_cases hp : p = reversePort
    · rw [hp]
      exact .same _
    · exact (retired_closePort h hp).slotChange rfl
  | closeBroadcast b => exact (Broadcast.retired_close h b ho).1.slotChange rfl
  | receive p => exact .same _
  | read j r =>
    by_cases hk : k = j
    · subst hk
      by_cases hlt : k < x.pending.slots.length
      · have hslot : ((Op.read k r).exec x).slot k = (r.run (x.slot k)).2 :=
          (x.pending.slot_setSlot k k _ hlt).trans (if_pos rfl)
        rw [hslot]
        exact .read r
      · have hslot : ((Op.read k r).exec x).slot k = x.slot k := by
          change ((x.pending.slots.set k _).getD k .taken : OneShot Value) = _
          rw [List.set_eq_of_length_le (Nat.le_of_not_lt hlt)]
          rfl
        rw [hslot]
        exact .same _
    · have hslot : ((Op.read j r).exec x).slot k = x.slot k := x.pending.slot_setSlot_ne _ hk
      rw [hslot]
      exact .same _
  | shutdown =>
    change SlotChange x k _ (x.shutdown.slot k)
    rw [(down_shutdown h).slot]
    exact .abandon rfl
  | hold => exact .same _
  | release =>
    change SlotChange x k _ (x.release.slot k)
    unfold Exchange.release
    split
    · exact .same _
    · change SlotChange x k _ (x.shutdown.slot k)
      rw [(down_shutdown h).slot]
      exact .abandon rfl
    · exact .same _

inductive InboxChange (x : Exchange) (p : PortId) : Op → Inbox → Prop where
  | same (o : Op) : InboxChange x p o (x.inbox p)
  | opened (task : String) (hx : x.closed = false) (hp : p = x.nextPort) :
      InboxChange x p (.openBroadcast task) .empty
  | queued (v : Value) (hb : (x.inbox p).closed = false) :
      InboxChange x p (.post p v) ⟨(x.inbox p).queue ++ [v], false⟩
  | received : InboxChange x p (.receive p) (x.inbox p).tryReceive.2
  | closed (o : Op) (ho : o.isPost = false) : InboxChange x p o (x.inbox p).close.2
  | discarded (b : Broadcast) (hb : b.id = p) : InboxChange x p (.closeBroadcast b) ⟨[], true⟩

theorem OpenedSingle.inboxChange {a : Except Fault (PortId × Ticket)} (ho : OpenedSingle x a y) :
    InboxChange x p .openSingle (y.inbox p) := by
  cases ho <;> exact .same _

theorem OpenedBroadcast.inboxChange (h : x.Consistent) {task : String} {a : Except Fault Broadcast}
    (ho : OpenedBroadcast x task a y) : InboxChange x p (.openBroadcast task) (y.inbox p) := by
  cases ho with
  | closed hx => exact .same _
  | opened name y hx hn hy =>
    rw [inbox_opened h (congrArg Core.inboxes hy)]
    split
    · rename_i hp
      exact .opened task hx hp
    · exact .same _

theorem Posted.inboxChange {q : PortId} {v : Value} {d : Delivery} (hpost : Posted x q v d y) :
    InboxChange x p (.post q v) (y.inbox p) := by
  cases hpost with
  | completed w r hx hr =>
    rw [inbox_congr (core_ring _)]
    exact .same _
  | queued hx ht hn hb =>
    rw [inbox_congr (core_ring _)]
    change InboxChange x p _ ((x.setInbox q _).inbox p)
    rw [inbox_setInbox]
    split
    · rename_i hp
      obtain ⟨rfl, -⟩ := hp
      have hpush : ((x.inbox p).push v).2 = ⟨(x.inbox p).queue ++ [v], false⟩ := by
        rw [Inbox.push, hb]
        rfl
      rw [hpush]
      exact .queued v hb
    · exact .same _
  | dropped why hd =>
    rw [inbox_congr (core_drop x q why)]
    exact .same _

theorem Down.inboxChange (h : Down x y) (ho : o.isPost = false) :
    InboxChange x p o (y.inbox p) := by
  rw [h.inbox]
  exact .closed o ho

theorem Op.inboxChange (h : x.Consistent) (o : Op) (ho : o.Lawful x) (p : PortId) :
    InboxChange x p o ((o.exec x).inbox p) := by
  cases o with
  | openSingle => exact x.openSingle_opened.inboxChange
  | openBroadcast task => exact (x.openBroadcast_opened task).inboxChange h
  | post q v => exact (x.post_posted q v).inboxChange
  | closePort q =>
    by_cases hq : q = reversePort
    · rw [hq]
      exact .same _
    · change InboxChange x p _ ((x.closePort q).2.inbox p)
      by_cases hp : p = q
      · subst hp
        rw [inbox_closePort h hq]
        exact .closed _ rfl
      · rw [(retired_closePort h hq).inbox_ne p hp]
        exact .same _
  | closeBroadcast b =>
    obtain ⟨hret, hempty⟩ := Broadcast.retired_close h b ho
    change InboxChange x p _ ((b.close x).2.inbox p)
    by_cases hp : p = b.id
    · subst hp
      rw [hempty]
      exact .discarded b rfl
    · rw [hret.inbox_ne p hp]
      exact .same _
  | receive q =>
    change InboxChange x p _ ((x.setInbox q _).inbox p)
    rw [inbox_setInbox]
    split
    · rename_i hp
      obtain ⟨rfl, -⟩ := hp
      exact .received
    · exact .same _
  | read j r => exact .same _
  | shutdown => exact (down_shutdown h).inboxChange rfl
  | hold => exact .same _
  | release =>
    change InboxChange x p _ (x.release.inbox p)
    unfold Exchange.release
    split
    · exact .same _
    · exact (down_shutdown h).inboxChange rfl
    · exact .same _

theorem closed_tryReceive (b : Inbox) : b.tryReceive.2.closed = b.closed := by
  unfold Inbox.tryReceive
  split <;> rfl

theorem queue_tryReceive (b : Inbox) : b.tryReceive.2.queue = b.queue.tail := by
  unfold Inbox.tryReceive
  split <;> rename_i hq <;> rw [hq] <;> rfl

theorem InboxChange.stays_closed {b : Inbox} (hc : InboxChange x p o b) (hp : x.Issued p)
    (hb : (x.inbox p).closed = true) : b.closed = true := by
  cases hc with
  | same => exact hb
  | opened task hx he => exact absurd he hp.ne_next
  | queued v ho =>
    rw [hb] at ho
    cases ho
  | received => rw [closed_tryReceive, hb]
  | closed => rfl
  | discarded => rfl

theorem InboxChange.stays_empty {b : Inbox} (hc : InboxChange x p o b) (hp : x.Issued p)
    (hb : x.inbox p = ⟨[], true⟩) : b = ⟨[], true⟩ := by
  cases hc with
  | same => exact hb
  | opened task hx he => exact absurd he hp.ne_next
  | queued v ho =>
    rw [hb] at ho
    cases ho
  | received | closed =>
    rw [hb]
    rfl
  | discarded => rfl

/-- Without a post to it, an inbox only loses values, the oldest first. -/
theorem InboxChange.suffix {b : Inbox} (hc : InboxChange x p o b)
    (ho : ∀ v, o = .post p v → (x.inbox p).closed = true) : b.queue <:+ (x.inbox p).queue := by
  cases hc with
  | same => exact List.suffix_rfl
  | opened => exact List.nil_suffix
  | queued v hb =>
    rw [ho v rfl] at hb
    cases hb
  | received =>
    rw [queue_tryReceive]
    exact List.tail_suffix _
  | closed => exact List.suffix_rfl
  | discarded => exact List.nil_suffix

/-- A value in a slot was there before, or it is posted now to the port that waits for it. -/
theorem SlotChange.ready {s : OneShot Value} {v : Value} (hc : SlotChange x k o s)
    (hs : s = .ready v) : x.slot k = .ready v ∨ ∃ p, o = .post p v ∧ x.ticket? p = some k := by
  cases hc with
  | same => exact .inl hs
  | issued => cases hs
  | completed p w ht =>
    cases hs
    exact .inr ⟨p, rfl, ht⟩
  | givenUp => cases hs
  | read r => exact .inl (OneShot.Read.ready_of_run hs)

/-- A value in an inbox was there before, or it is posted now to its port, which is open. -/
theorem InboxChange.mem {b : Inbox} {v : Value} (hc : InboxChange x p o b) (hv : v ∈ b.queue) :
    v ∈ (x.inbox p).queue ∨ o = .post p v ∧ (x.inbox p).closed = false := by
  cases hc with
  | same => exact .inl hv
  | opened => cases hv
  | queued w hb =>
    rcases List.mem_append.1 hv with hold | hnew
    · exact .inl hold
    · rw [List.mem_singleton.1 hnew]
      exact .inr ⟨rfl, hb⟩
  | received =>
    rw [queue_tryReceive] at hv
    exact .inl (List.mem_of_mem_tail hv)
  | closed => exact .inl hv
  | discarded => cases hv

/-- A port that was given out and is not open does not open again. -/
theorem Op.stays_shut (h : x.Consistent) (o : Op) (ho : o.Lawful x) (hp : x.Issued p)
    (hshut : x.isOpen p = false) : (o.exec x).isOpen p = false := by
  rw [isOpen_eq, Bool.or_eq_false_iff] at hshut ⊢
  obtain ⟨hticket, hname⟩ := hshut
  refine ⟨?_, ?_⟩
  · cases hk : (o.exec x).ticket? p with
    | none => rfl
    | some k =>
      rcases (o.grows h ho).ticket p k hk with hold | ⟨hnew, -⟩
      · rw [hold] at hticket
        cases hticket
      · exact absurd hp hnew
  · rw [h.open_iff, Bool.not_eq_false'] at hname
    rw [(o.consistent h ho).open_iff, (o.inboxChange h ho p).stays_closed hp hname]
    rfl

theorem Op.stays_closed (h : x.Consistent) (o : Op) (ho : o.Lawful x) (hx : x.closed = true) :
    (o.exec x).closed = true := by
  cases o with
  | openSingle =>
    change x.openSingle.2.closed = true
    rw [Exchange.openSingle, if_pos hx]
    exact hx
  | openBroadcast task =>
    change (x.openBroadcast task).2.closed = true
    rw [Exchange.openBroadcast, if_pos hx]
    exact hx
  | post p v =>
    change (x.post p v).2.closed = true
    rw [Exchange.post, if_pos hx, closed_congr (core_drop x p _)]
    exact hx
  | closePort p =>
    by_cases hp : p = reversePort
    · rw [hp]
      exact hx
    · exact (retired_closePort h hp).closed.trans hx
  | closeBroadcast b => exact (Broadcast.retired_close h b ho).1.closed.trans hx
  | shutdown => exact (down_shutdown h).closed
  | release =>
    change x.release.closed = true
    unfold Exchange.release
    split
    · exact hx
    · exact (down_shutdown h).closed
    · exact hx
  | receive | read | hold => exact hx

theorem Posted.slots_length {v : Value} {d : Delivery} (hp : Posted x p v d y) :
    y.pending.slots.length = x.pending.slots.length := by
  cases hp with
  | completed w r hx hr =>
    rw [pending_congr (core_ring _)]
    exact Pending.slots_retire_length hr
  | queued hx ht hn hb =>
    rw [pending_congr (core_ring _)]
    rfl
  | dropped why hd =>
    rw [pending_congr (core_drop x p why)]
    rfl

theorem Op.slots_length (h : x.Consistent) (o : Op) (ho : o.Lawful x) (hopens : o.opens = false) :
    (o.exec x).pending.slots.length = x.pending.slots.length := by
  cases o with
  | openSingle | openBroadcast => cases hopens
  | post p v => exact (x.post_posted p v).slots_length
  | closePort p =>
    by_cases hp : p = reversePort
    · rw [hp]
      rfl
    · exact (retired_closePort h hp).slots
  | closeBroadcast b => exact (Broadcast.retired_close h b ho).1.slots
  | read k r => exact Pending.slots_setSlot_length _ _ _
  | shutdown => exact (down_shutdown h).slots
  | release =>
    change x.release.pending.slots.length = _
    unfold Exchange.release
    split
    · rfl
    · exact (down_shutdown h).slots
    · rfl
  | receive | hold => rfl

namespace Runs

/-- What each of the operations keeps, all of them keep, if it is decided by the core. -/
theorem preserves {P : Exchange → Prop} (hr : Runs ops x y) (h : x.Consistent) (hf : Fit ops x)
    (hcore : ∀ {a b : Exchange}, b.core = a.core → P a → P b)
    (hexec : ∀ {a : Exchange}, ∀ o ∈ ops, a.Consistent → o.Lawful a → Grows x a → P a → P (o.exec a))
    (hx : P x) : P y := by
  -- the operations that are left come from all of them, and the exchange they start from grew
  have hall : ∀ {ops' : List Op} {a b : Exchange}, Runs ops' a b → (∀ o ∈ ops', o ∈ ops) →
      a.Consistent → Fit ops' a → Grows x a → P a → P b := by
    intro ops' a b hr'
    induction hr' with
    | quiet hc => exact fun _ _ _ _ ha => hcore hc ha
    | @exec a b c o ops' hc _ ih =>
      intro hsub ha hfa hg hpa
      have hb := ha.of_core hc
      have hl := hfa.lawful hc
      have hgb := hg.trans (.of_core hc)
      exact ih (fun o' ho' => hsub o' (List.mem_cons_of_mem _ ho')) (o.consistent hb hl)
        (hfa.tail ha hc) (hgb.trans (o.grows hb hl))
        (hexec o (hsub o List.mem_cons_self) hb hl hgb (hcore hc hpa))
  exact hall hr (fun _ ho => ho) h hf (.of_core rfl) hx

theorem slots_length (hr : Runs ops x y) (h : x.Consistent) (hf : Fit ops x)
    (ho : ops.countP Op.opens = 0) : y.pending.slots.length = x.pending.slots.length :=
  hr.preserves (P := fun z => z.pending.slots.length = x.pending.slots.length) h hf
    (fun hc ha => by rwa [pending_congr hc])
    (fun o hmem ha hl _ hpa => (o.slots_length ha hl
      ((Bool.not_eq_true _).mp (List.countP_eq_zero.1 ho o hmem))).trans hpa) rfl

theorem stays_shut (hr : Runs ops x y) (h : x.Consistent) (hf : Fit ops x) (hp : x.Issued p)
    (hshut : x.isOpen p = false) : y.isOpen p = false :=
  hr.preserves (P := fun z => z.isOpen p = false) h hf
    (fun hc ha => by rwa [isOpen_eq, ticket?_congr hc, portName?_congr hc, ← isOpen_eq])
    (fun o _ ha hl hg hpa => o.stays_shut ha hl (hg.issued p hp) hpa) hshut

theorem inbox_stays_closed (hr : Runs ops x y) (h : x.Consistent) (hf : Fit ops x)
    (hp : x.Issued p) (hb : (x.inbox p).closed = true) : (y.inbox p).closed = true :=
  hr.preserves (P := fun z => (z.inbox p).closed = true) h hf
    (fun hc ha => by rwa [inbox_congr hc])
    (fun o _ ha hl hg hpa => (o.inboxChange ha hl p).stays_closed (hg.issued p hp) hpa) hb

theorem stays_empty (hr : Runs ops x y) (h : x.Consistent) (hf : Fit ops x) (hp : x.Issued p)
    (hb : x.inbox p = ⟨[], true⟩) : y.inbox p = ⟨[], true⟩ :=
  hr.preserves (P := fun z => z.inbox p = ⟨[], true⟩) h hf
    (fun hc ha => (inbox_congr hc p).trans ha)
    (fun o _ ha hl hg hpa => (o.inboxChange ha hl p).stays_empty (hg.issued p hp) hpa) hb

theorem emptied {b : Broadcast} (hr : Runs ops x y) (h : x.Consistent) (hf : Fit ops x)
    (hp : x.Issued b.id) (hb : Op.closeBroadcast b ∈ ops) : y.inbox b.id = ⟨[], true⟩ := by
  induction hr with
  | quiet => cases hb
  | @exec x z y o ops hc hr ih =>
    have hz := h.of_core hc
    have hl := hf.lawful hc
    have hnext := (o.grows hz hl).issued b.id ((Grows.of_core hc).issued b.id hp)
    rcases List.mem_cons.1 hb with rfl | hb
    · exact hr.stays_empty (Op.consistent hz _ hl) (hf.tail h hc) hnext
        (Broadcast.retired_close hz b hl).2
    · exact ih (o.consistent hz hl) (hf.tail h hc) hnext hb

theorem closed_receive {q : PortId} (hr : Runs [.receive q] x y) (p : PortId) :
    (y.inbox p).closed = (x.inbox p).closed := by
  cases hr with
  | @exec _ z _ _ _ hc hr =>
    cases hr with
    | quiet hc' =>
      rw [inbox_congr hc', ← inbox_congr hc]
      change ((z.setInbox q _).inbox p).closed = _
      rw [inbox_setInbox]
      split
      · rename_i hp
        rw [closed_tryReceive, hp.1]
      · rfl

theorem ready_of_ready (hr : Runs ops x y) (h : x.Consistent) (hf : Fit ops x)
    (hp : ∀ o ∈ ops, o.isPost = false) {v : Value} :
    y.slot k = .ready v → x.slot k = .ready v :=
  hr.preserves (P := fun z => z.slot k = .ready v → x.slot k = .ready v) h hf
    (fun hc ha hv => ha (by rw [← slot_congr hc, hv]))
    (fun o ho ha hl _ hpa hv => hpa ((o.slotChange ha hl k).ready hv |>.resolve_right (by
      rintro ⟨q, rfl, -⟩
      exact Bool.noConfusion (hp _ ho)))) id

theorem queue_suffix (hr : Runs ops x y) (h : x.Consistent) (hf : Fit ops x)
    (hp : ∀ o ∈ ops, o.isPost = false) (p : PortId) :
    (y.inbox p).queue <:+ (x.inbox p).queue := by
  refine hr.preserves (P := fun z => (z.inbox p).queue <:+ (x.inbox p).queue) h hf
    (fun hc ha => by rwa [inbox_congr hc]) ?_ List.suffix_rfl
  intro z o ho hz hl _ hpz
  refine ((o.inboxChange hz hl p).suffix ?_).trans hpz
  rintro v rfl
  have hpost := hp _ ho
  cases hpost

end Runs

end Exchange

end CallExchange
