import CallExchange.Codec.Payload
import CallExchange.Floor
import CallExchange.Proofs.Completions
import CallExchange.Proofs.InboxHistories
import CallExchange.Proofs.Readings

set_option autoImplicit false

/-!
# Reads that agree

A slot is read by polling, by blocking and by blocking for a while, and so is an inbox. All find
the same, leave the same behind, and leave alone what they find nothing in; a wait whose deadline is
past the end of the clock aborts before it looks. Results and streams read their slots and inboxes
so.
-/

namespace CallExchange

variable {α ε : Type}

namespace OneShot

/-- Whether a read takes what there is. One that is timed needs a deadline. -/
def Read.takes : Read → Bool
  | .tryTake | .poll _ | .wait => true
  | .waitTimeout t => !t.noDeadline
  | .isSettled | .drop => false

def Read.leaves {β : Type} (r : Read) (s : OneShot β) : OneShot β :=
  match r with
  | .poll w => .pending (some w)
  | _ => s

structure ReadsAgree {β : Type} (s : OneShot β) : Prop where
  settled : s.isSettled = true →
    ∃ v s', ∀ r : Read, r.takes = true → r.run s = (r.shows (some v), s')
  unsettled : s.isSettled = false →
    ∀ r : Read, r.takes = true → r.run s = (r.shows none, r.leaves s)
  noDeadline : ∀ t : Timeout, t.noDeadline = true →
    (Read.waitTimeout t).run s = (.unwound .noDeadline, s)

variable {β : Type} {s : OneShot β}

theorem run_of_settled {r : Read} (hr : r.takes = true) (hs : s.isSettled = true) :
    (r.run s).2 = s.take.2 := by
  cases r with
  | isSettled | drop => cases hr
  | tryTake | wait => cases s <;> rfl
  | poll w =>
    rw [Read.run, take_of_isSettled s hs]
    cases s <;> rfl
  | waitTimeout t =>
    rw [Read.run_waitTimeout, if_neg (by simpa [Read.takes] using hr)]
    cases s <;> rfl

theorem readsAgree (s : OneShot β) : s.ReadsAgree where
  settled hs := by
    obtain ⟨v, hv⟩ := Option.isSome_iff_exists.1 ((take_fst_isSome s).trans hs)
    refine ⟨v, s.take.2, fun r hr => Prod.ext ?_ (run_of_settled hr hs)⟩
    rw [r.run_fst, hv]
  unsettled hs r hr := by
    cases s with
    | pending w =>
      refine Prod.ext (r.run_fst _) ((r.run_pending w).trans ?_)
      cases r with
      | waitTimeout t =>
        rw [Read.run_waitTimeout, if_neg (by simpa [Read.takes] using hr)]
        rfl
      | _ => rfl
    | ready | taken | abandoned => cases hs
  noDeadline t ht := (Read.run_waitTimeout t s).trans (if_pos ht)

end OneShot

namespace Inbox

def Command.takes : Command → Bool
  | .tryReceive | .receive => true
  | .receiveWithin t => !t.noDeadline
  | .push _ | .close | .discard => false

def Command.shows (c : Command) (closed : Bool) : Answer :=
  match c with
  | .receive => if closed then .value none else .wouldBlock
  | .receiveWithin _ => if closed then .value none else .timedOut
  | _ => .value none

structure ReadsAgree (b : Inbox) : Prop where
  queued : ∀ v vs, b.queue = v :: vs →
    ∀ c : Command, c.takes = true → b.apply c = (.value (some v), ⟨vs, b.closed⟩)
  drained : b.queue = [] → ∀ c : Command, c.takes = true → b.apply c = (c.shows b.closed, b)
  noDeadline : ∀ t : Timeout, t.noDeadline = true →
    b.apply (.receiveWithin t) = (.unwound .noDeadline, b)

theorem readsAgree (b : Inbox) : b.ReadsAgree where
  queued v vs hb c hc := by
    obtain ⟨queue, closed⟩ := b
    cases hb
    cases c with
    | push | close | discard => cases hc
    | tryReceive | receive => rfl
    | receiveWithin t =>
      rw [apply_withDeadline _ (by simpa [Command.takes] using hc)]
      rfl
  drained hb c hc := by
    obtain ⟨queue, closed⟩ := b
    cases hb
    cases c with
    | push | close | discard => cases hc
    | tryReceive => rfl
    | receive => cases closed <;> rfl
    | receiveWithin t =>
      rw [apply_withDeadline _ (by simpa [Command.takes] using hc)]
      cases closed <;> rfl
  noDeadline t := apply_noDeadline b

end Inbox

/-- The contract of a codec: it decodes whatever comes, also what it finds malformed. -/
def Codec.DecodesAll (codec : Codec α ε) : Prop := ∀ v p, codec.decode v ≠ .error p

theorem Exchange.setSlot_slot (x : Exchange) (k : Ticket) : x.setSlot k (x.pending.slot k) = x := by
  rw [Exchange.setSlot, Pending.setSlot_slot]

namespace Deferred

variable {thread : Option String} {d : Deferred α ε} {x : Exchange} {k : Ticket}

/-- A result is ready if and only if a read finds it, for a codec that keeps its contract; with any
other codec the read may abort instead. All reads do the same with a result that is ready. -/
structure ReadsAgree (thread : Option String) (d : Deferred α ε) (x : Exchange) : Prop where
  ready : d.codec.DecodesAll →
    (d.isReady x = true ↔ ∃ r st, tryTake thread (d, x) = .returned (some r) st)
  ready_or_aborts : d.isReady x = true ↔
    (∃ r st, tryTake thread (d, x) = .returned (some r) st) ∨
      ∃ v p st, d.codec.decode v = .error p ∧ tryTake thread (d, x) = .unwound p st
  notReady : d.isReady x = false ↔ tryTake thread (d, x) = .returned none (d, x)
  poll : d.isReady x = true → ∀ w, poll thread w (d, x) = tryTake thread (d, x)
  polled : d.isReady x = false → ∃ k, d.state = .waiting k ∧
    ∀ w, Deferred.poll thread w (d, x) = .returned none (d, x.setSlot k (.pending (some w)))
  wait : d.isReady x = true →
    d.wait thread x = (tryTake thread (d, x)).map id fun st => d.letGo st.2
  waited : d.isReady x = false → d.wait thread x = .returned none x
  waitTimeout : ∀ t : Timeout, t.noDeadline = false →
    waitTimeout thread t (d, x) = tryTake thread (d, x)
  noDeadline : ∀ t : Timeout, t.noDeadline = true → Deferred.waitTimeout thread t (d, x) =
    if d.holds then .unwound .noDeadline (d, x) else tryTake thread (d, x)

theorem finish_cases (thread : Option String) (d : Deferred α ε) (v : OneShot.Verdict Value)
    (x : Exchange) : (∃ r y, d.finish thread v x = .returned r y) ∨
      ∃ w p y, d.codec.decode w = .error p ∧ d.finish thread v x = .unwound p y := by
  cases v with
  | abandoned => exact .inl ⟨_, _, rfl⟩
  | value v =>
    cases hv : d.codec.decode v with
    | error p =>
      refine .inr ⟨v, p, x, hv, ?_⟩
      rw [finish, Reader.read, hv]
    | ok a =>
      refine .inl ⟨(Reader.lift ⟨d.task, thread⟩ a x).1, (Reader.lift ⟨d.task, thread⟩ a x).2, ?_⟩
      rw [finish, Reader.read, hv]

theorem tryTake_settled (thread : Option String) (hd : d.state = .waiting k)
    (hs : (x.pending.slot k).isSettled = true) :
    (∃ r st, tryTake thread (d, x) = .returned (some r) st) ∨
      ∃ v p st, d.codec.decode v = .error p ∧ tryTake thread (d, x) = .unwound p st := by
  obtain ⟨v, hv⟩ := Option.isSome_iff_exists.1 ((OneShot.take_fst_isSome _).trans hs)
  have htake : (x.pending.slot k).take = (some v, (x.pending.slot k).take.2) := Prod.ext hv rfl
  rw [tryTake, readBy_found thread hd (congrArg Except.ok htake)]
  obtain ⟨r, y, hr⟩ | ⟨w, p, y, hw, hp⟩ := d.finish_cases thread v
    (x.setSlot k (x.pending.slot k).take.2)
  · rw [hr]
    exact .inl ⟨r, (d, y), rfl⟩
  · rw [hp]
    exact .inr ⟨w, p, (d, y), hw, rfl⟩

theorem tryTake_unsettled (thread : Option String) (hd : d.state = .waiting k)
    (hs : (x.pending.slot k).isSettled = false) :
    tryTake thread (d, x) = .returned none (d, x) := by
  have htake : (x.pending.slot k).take = (none, x.pending.slot k) := by
    cases hslot : x.pending.slot k with
    | pending w => rfl
    | ready | taken | abandoned =>
      rw [hslot] at hs
      cases hs
  rw [tryTake, readBy_nothing thread hd (congrArg Except.ok htake), x.setSlot_slot]

theorem poll_unsettled (thread : Option String) (hd : d.state = .waiting k)
    (hs : (x.pending.slot k).isSettled = false) (w : Waker) :
    Deferred.poll thread w (d, x) = .returned none (d, x.setSlot k (.pending (some w))) := by
  have hpoll : (x.pending.slot k).poll w = (none, .pending (some w)) := by
    cases hslot : x.pending.slot k with
    | pending w => rfl
    | ready | taken | abandoned =>
      rw [hslot] at hs
      cases hs
  exact readBy_nothing thread hd (congrArg Except.ok hpoll)

theorem waitTimeout_eq (thread : Option String) {t : Timeout} (ht : t.noDeadline = false) :
    waitTimeout thread t = (tryTake thread : Act α ε _) := by
  have htake : (fun s : OneShot Value => s.takeWithin t) = fun s => .ok s.take :=
    funext fun s => by rw [OneShot.takeWithin, ht]; rfl
  rw [waitTimeout, tryTake, htake]

theorem waiting_of_notReady (h : d.isReady x = false) :
    ∃ k, d.state = .waiting k ∧ (x.pending.slot k).isSettled = false := by
  cases hd : d.state with
  | waiting k =>
    rw [isReady, hd] at h
    exact ⟨k, rfl, h⟩
  | failed failure =>
    rw [isReady, hd] at h
    cases h

theorem tryTake_ready (thread : Option String) (h : d.isReady x = true) :
    (∃ r st, tryTake thread (d, x) = .returned (some r) st) ∨
      ∃ v p st, d.codec.decode v = .error p ∧ tryTake thread (d, x) = .unwound p st := by
  cases hd : d.state with
  | waiting k =>
    rw [isReady, hd] at h
    exact tryTake_settled thread hd h
  | failed failure => exact .inl ⟨_, _, readBy_failed thread _ hd x⟩

theorem tryTake_notReady (thread : Option String) (h : d.isReady x = false) :
    tryTake thread (d, x) = .returned none (d, x) := by
  obtain ⟨k, hd, hs⟩ := waiting_of_notReady h
  exact tryTake_unsettled thread hd hs

theorem poll_ready (thread : Option String) (h : d.isReady x = true) (w : Waker) :
    Deferred.poll thread w (d, x) = tryTake thread (d, x) := by
  cases hd : d.state with
  | waiting k =>
    rw [isReady, hd] at h
    simp only [Deferred.poll, tryTake, readBy, hd, OneShot.take_of_isSettled _ h]
  | failed failure =>
    exact (readBy_failed thread _ hd x).trans (readBy_failed thread _ hd x).symm

theorem waitTimeout_noDeadline (thread : Option String) {t : Timeout} (ht : t.noDeadline = true) :
    waitTimeout thread t (d, x) =
      if d.holds then .unwound .noDeadline (d, x) else tryTake thread (d, x) := by
  cases hd : d.state with
  | waiting k =>
    have hg : (x.pending.slot k).takeWithin t = .error .noDeadline := by
      rw [OneShot.takeWithin, if_pos ht]
    rw [holds, hd, if_pos rfl]
    exact readBy_aborts thread hd hg
  | failed failure =>
    rw [holds, hd, if_neg Bool.false_ne_true]
    exact (readBy_failed thread _ hd x).trans (readBy_failed thread _ hd x).symm

theorem ready_iff (thread : Option String) (d : Deferred α ε) (x : Exchange) :
    d.isReady x = true ↔ (∃ r st, tryTake thread (d, x) = .returned (some r) st) ∨
      ∃ v p st, d.codec.decode v = .error p ∧ tryTake thread (d, x) = .unwound p st := by
  refine ⟨tryTake_ready thread, fun hfound => ?_⟩
  by_contra hnot
  rw [tryTake_notReady thread (Bool.eq_false_iff.2 hnot)] at hfound
  rcases hfound with ⟨r, st, he⟩ | ⟨v, p, st, -, he⟩ <;> cases he

theorem readsAgree (thread : Option String) (d : Deferred α ε) (x : Exchange) :
    d.ReadsAgree thread x where
  ready hdec := by
    rw [ready_iff thread]
    exact or_iff_left fun ⟨v, p, _, hv, _⟩ => hdec v p hv
  ready_or_aborts := ready_iff thread d x
  notReady := by
    refine ⟨tryTake_notReady thread, fun hnone => ?_⟩
    by_contra hready
    have hfound := tryTake_ready thread (eq_true_of_ne_false hready)
    rw [hnone] at hfound
    rcases hfound with ⟨r, st, he⟩ | ⟨v, p, st, -, he⟩ <;> cases he
  poll := poll_ready thread
  polled h := by
    obtain ⟨k, hd, hs⟩ := waiting_of_notReady h
    exact ⟨k, hd, poll_unsettled thread hd hs⟩
  wait h := by
    rw [Deferred.wait, h]
    rfl
  waited h := by
    rw [Deferred.wait, tryTake_notReady thread h, h]
    rfl
  waitTimeout t ht := by rw [waitTimeout_eq thread ht]
  noDeadline t := waitTimeout_noDeadline thread

end Deferred

namespace Stream

variable {thread : Option String} {c : Stream α ε} {x : Exchange}

structure ReadsAgree (thread : Option String) (c : Stream α ε) (x : Exchange) : Prop where
  found : c.isIdle x = false → ∀ st, next thread (c, x) ≠ .returned .nothingYet st
  idle : c.isIdle x = true → ∃ y, next thread (c, x) = .returned .nothingYet (c, y) ∧
    y = x.setInbox c.port.id (x.inbox c.port.id) ∧ ∀ p, y.inbox p = x.inbox p
  nextTimeout : ∀ t : Timeout, t.noDeadline = false →
    nextTimeout thread t (c, x) = next thread (c, x)
  noDeadline : ∀ t : Timeout, t.noDeadline = true → Stream.nextTimeout thread t (c, x) =
    if c.holds then .unwound .noDeadline (c, x) else next thread (c, x)

theorem accept_found (thread : Option String) (r : Inbox.Received) (c : Stream α ε)
    (x : Exchange) (st : Stream α ε × Exchange) :
    accept thread r (c, x) ≠ .returned .nothingYet st := by
  intro he
  cases r with
  | ended => cases he
  | value v =>
    rw [accept] at he
    dsimp only at he
    split at he
    · cases he
    · split at he <;> cases he

theorem pullBy_over (thread : Option String)
    (g g' : Inbox → Except Panic (Option Inbox.Received × Inbox)) (h : c.holds = false)
    (x : Exchange) : pullBy thread g (c, x) = pullBy thread g' (c, x) ∧
      ∀ st, pullBy thread g (c, x) ≠ .returned .nothingYet st := by
  cases hf : c.failure with
  | some failure =>
    have hpull : ∀ g, pullBy thread g (c, x) =
        .returned (.item (.error failure)) ({ c with failure := none, finished := true }, x) :=
      fun g => by rw [pullBy, hf]
    rw [hpull, hpull]
    exact ⟨rfl, fun st => by intro he; cases he⟩
  | none =>
    have hfinished : c.finished = true := by
      rw [holds, hf] at h
      simpa using h
    have hpull : ∀ g, pullBy thread g (c, x) = .returned .done (c, x) := fun g => by
      rw [pullBy, hf]
      dsimp only
      rw [if_pos hfinished]
    rw [hpull, hpull]
    exact ⟨rfl, fun st => by intro he; cases he⟩

theorem next_found (thread : Option String) (h : c.isIdle x = false)
    (st : Stream α ε × Exchange) : next thread (c, x) ≠ .returned .nothingYet st := by
  cases hholds : c.holds with
  | false => exact (pullBy_over thread _ (fun b => .ok b.receive) hholds x).2 st
  | true =>
    have hsome : (x.inbox c.port.id).receive.1.isSome = true := by
      rw [isIdle, hholds, Bool.true_and] at h
      rw [Inbox.receive_isSome, h]
      rfl
    obtain ⟨r, hr⟩ := Option.isSome_iff_exists.1 hsome
    have hreceive : (x.inbox c.port.id).receive = (some r, (x.inbox c.port.id).receive.2) :=
      Prod.ext hr rfl
    rw [next, pullBy_found thread hholds (congrArg Except.ok hreceive)]
    exact accept_found thread r c _ st

theorem next_idle (thread : Option String) (h : c.isIdle x = true) :
    next thread (c, x) =
      .returned .nothingYet (c, x.setInbox c.port.id (x.inbox c.port.id)) := by
  rw [isIdle, Bool.and_eq_true] at h
  have hreceive : (x.inbox c.port.id).receive = (none, x.inbox c.port.id) := by
    obtain ⟨hempty, hopen⟩ : (x.inbox c.port.id).isEmpty = true ∧
        (x.inbox c.port.id).closed = false := by simpa [Inbox.isIdle] using h.2
    generalize x.inbox c.port.id = b at hempty hopen ⊢
    obtain ⟨_ | ⟨v, vs⟩, closed⟩ := b
    · cases hopen
      rfl
    · cases hempty
  exact pullBy_nothing thread h.1 (congrArg Except.ok hreceive)

theorem nextTimeout_eq (thread : Option String) {t : Timeout} (ht : t.noDeadline = false) :
    nextTimeout thread t = (next thread : Act α ε _) := by
  have hreceive : (fun b : Inbox => b.receiveWithin t) = fun b => .ok b.receive :=
    funext fun b => by rw [Inbox.receiveWithin, ht]; rfl
  rw [nextTimeout, next, hreceive]

theorem nextTimeout_aborts (thread : Option String) {t : Timeout} (ht : t.noDeadline = true) :
    nextTimeout thread t (c, x) =
      if c.holds then .unwound .noDeadline (c, x) else next thread (c, x) := by
  cases h : c.holds with
  | true =>
    have hg : (x.inbox c.port.id).receiveWithin t = .error .noDeadline := by
      rw [Inbox.receiveWithin, if_pos ht]
    rw [if_pos rfl]
    exact pullBy_aborts thread h hg
  | false =>
    rw [if_neg Bool.false_ne_true]
    exact (pullBy_over thread _ _ h x).1

theorem readsAgree (thread : Option String) (c : Stream α ε) (x : Exchange) :
    c.ReadsAgree thread x where
  found := next_found thread
  idle h := by
    refine ⟨_, next_idle thread h, rfl, fun p => ?_⟩
    rw [Exchange.inbox_setInbox]
    split
    · rename_i hp
      rw [hp.1]
    · rfl
  nextTimeout t ht := by rw [nextTimeout_eq thread ht]
  noDeadline t := nextTimeout_aborts thread

end Stream

namespace Floor

structure KeptWithoutDeadline (f : Floor α ε) (thread : Option String) (t : Timeout) : Prop where
  result : t.noDeadline = true → ∀ n d, f.session.deferreds[n]?.join = some d → d.holds = true →
    f.apply thread (.step (.waitTimeout n t) rfl) = (.unwound .noDeadline, f)
  stream : t.noDeadline = true → ∀ n c, f.session.streams[n]?.join = some c → c.holds = true →
    f.apply thread (.step (.nextTimeout n t) rfl) = (.unwound .noDeadline, f)
  broadcast : t.noDeadline = true → ∀ n b, f.session.broadcasts[n]?.join = some b →
    f.apply thread (.step (.receiveWithin n t) rfl) = (.unwound .noDeadline, f)
  ticket : t.noDeadline = true → ∀ n k, f.session.tickets[n]?.join = some k →
    f.apply thread (.step (.readTicket n (.waitTimeout t)) rfl) = (.slot (.unwound .noDeadline), f)

theorem keptWithoutDeadline (f : Floor α ε) (thread : Option String) (t : Timeout) :
    f.KeptWithoutDeadline thread t where
  result ht n d hd hh := by
    have hread := Deferred.waitTimeout_noDeadline thread ht (d := d) (x := f.session.exchange)
    rw [if_pos hh] at hread
    change f.turn (f.session.readDeferred n .pending (Deferred.waitTimeout thread t)) = _
    rw [Session.readDeferred, Session.withHandle, hd]
    dsimp only
    rw [hread]
    change f.turn (_, { f.session with deferreds := f.session.deferreds.set n (some d) }) = _
    rw [Lookup.set_join_self hd]
    rfl
  stream ht n c hc hh := by
    have hpull := Stream.nextTimeout_aborts thread ht (c := c) (x := f.session.exchange)
    rw [if_pos hh] at hpull
    change f.turn (f.session.pullStream n (Stream.nextTimeout thread t)
      (Session.answerPull .timedOut)) = _
    rw [Session.pullStream, Session.withHandle, hc]
    dsimp only
    rw [hpull]
    change f.turn (_, { f.session with streams := f.session.streams.set n (some c) }) = _
    rw [Lookup.set_join_self hc]
    rfl
  broadcast ht n b hb := by
    change f.turn (f.session.receiveBy n .timedOut (Inbox.receiveWithin t)) = _
    rw [Session.receiveBy, Session.withHandle, hb]
    dsimp only
    rw [Inbox.receiveWithin, if_pos ht]
    rfl
  ticket ht n k hk := by
    have hread := (OneShot.readsAgree (f.session.exchange.pending.slot k)).noDeadline t ht
    change f.turn (f.session.readTicket n (.waitTimeout t)) = _
    rw [Session.readTicket, hk]
    dsimp only [Pending.read]
    rw [hread]
    dsimp only
    rw [Pending.setSlot_slot]
    rfl

end Floor

/-- Reads agree. Of a slot, an inbox, a result and a stream, each in whatever state, all reads find
the same and leave the same, or find nothing and leave what there is; and a wait whose deadline is
past the end of the clock takes nothing, so that everything is read afterwards as if it had not been
tried. -/
theorem reads_agree (s : OneShot Value) (b : Inbox) (thread : Option String) (d : Deferred α ε)
    (c : Stream α ε) (x : Exchange) (f : Floor α ε) (t : Timeout) :
    s.ReadsAgree ∧ b.ReadsAgree ∧ d.ReadsAgree thread x ∧ c.ReadsAgree thread x ∧
      f.KeptWithoutDeadline thread t :=
  ⟨s.readsAgree, b.readsAgree, d.readsAgree thread x, c.readsAgree thread x,
    f.keptWithoutDeadline thread t⟩

/-- A wait without a deadline for a result that is on its way, after which the result arrives and is
found. -/
theorem reads_agree_of_longest : ∃ x, Exchange.create .standard = .ok x ∧
    let codec : Codec Payload Payload := CodecPlan.toCodec ⟨.value, .value, true, .signal, false⟩
    let t : Timeout := ⟨.zero, .longest⟩
    let f := Floor.run none [.beginAsync "d" codec, .finish 0 (.ok ⟨[]⟩)] (Floor.start x)
    let g := Floor.run none [.step (.waitTimeout 0 t) rfl, .deliver ⟨1⟩ (.text "x")] f
    ∃ d, f.session.deferreds[0]?.join = some d ∧ d.holds = true ∧ codec.DecodesAll ∧
      t.noDeadline = true ∧
      f.apply none (.step (.waitTimeout 0 t) rfl) = (.unwound .noDeadline, f) ∧
      g.session.deferreds[0]?.join = some d ∧
      ∃ r st, Deferred.tryTake none (d, g.exchange) = .returned (some r) st := by
  obtain ⟨x, hx⟩ : ∃ x, Exchange.create .standard = .ok x := ⟨_, rfl⟩
  refine ⟨x, hx, ?_⟩
  intro codec t f g
  have ht : t.noDeadline = true := Timeout.noDeadline_longest (by decide)
  have hall : codec.DecodesAll := fun v p h => by cases h
  obtain ⟨d, hd, hh, hcodec⟩ : ∃ d, f.session.deferreds[0]?.join = some d ∧ d.holds = true ∧
      d.codec = codec := by
    cases hx
    exact ⟨_, rfl, rfl, rfl⟩
  obtain ⟨-, -, -, -, hkept⟩ := reads_agree .fresh .empty none d
    ⟨⟨⟨1⟩, "d"⟩, codec, "d", none, true⟩ f.exchange f t
  have haborts := hkept.result ht 0 d hd hh
  have hg : g = Floor.run none [.deliver ⟨1⟩ (.text "x")] f := by
    change Floor.run none _ (f.apply none (.step (.waitTimeout 0 t) rfl)).2 = _
    rw [haborts]
  obtain ⟨-, -, hread, -, -⟩ := reads_agree .fresh .empty none d
    ⟨⟨⟨1⟩, "d"⟩, codec, "d", none, true⟩ g.exchange g t
  have harrived : g.session.deferreds[0]?.join = some d ∧ d.isReady g.exchange = true := by
    rw [hg]
    cases hx
    cases hd
    exact ⟨rfl, rfl⟩
  exact ⟨d, hd, hh, hall, ht, haborts, harrived.1, (hread.ready (hcodec ▸ hall)).1 harrived.2⟩

end CallExchange
