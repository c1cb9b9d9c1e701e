import CallExchange.Proofs.Contents

set_option autoImplicit false

/-!
# What readers find

What a reader is answered when there is something to find: the value or the end in the slot that it
reads, or the oldest value of the queue that it takes from. This depends on the slot or the queue
and the handle alone, and on nothing else in the exchange.
-/

namespace CallExchange

variable {α ε : Type}

def Deferred.answerTo (thread : Option String) (d : Deferred α ε) :
    OneShot.Verdict Value → Answer α ε
  | .abandoned => .result (.error .disconnected)
  | .value v =>
    match d.codec.decode v with
    | .ok r => .result (Reader.resultOf ⟨d.task, thread⟩ r)
    | .error p => .unwound p

def Stream.answerTo (thread : Option String) (c : Stream α ε) (v : Value) : Answer α ε :=
  if c.codec.isEnd v then .ended
  else
    match c.codec.decode v with
    | .ok r => .result (Reader.resultOf ⟨c.task, thread⟩ r)
    | .error p => .unwound p

def OneShot.Read.found? (r : OneShot.Read) (v : OneShot.Verdict Value) :
    Option (OneShot.Answer Value) :=
  match r with
  | .tryTake | .poll _ | .wait => some (.verdict v)
  | .waitTimeout t => if t.noDeadline then none else some (.timed v)
  | .isSettled | .drop => none

def Move.receives (n : Nat) : Move α ε → Bool
  | .step (.receive i) _ | .step (.tryReceive i) _ => i = n
  | .step (.receiveWithin i t) _ => i = n && !t.noDeadline
  | _ => false

theorem OneShot.isSettled_of_take {s : OneShot Value} {v : OneShot.Verdict Value}
    (h : s.take.1 = some v) : s.isSettled = true := by
  rw [← OneShot.take_fst_isSome, h]
  rfl

theorem OneShot.Read.run_found {r : OneShot.Read} {s : OneShot Value} {v : OneShot.Verdict Value}
    {a : OneShot.Answer Value} (hs : s.take.1 = some v) (hr : r.found? v = some a) :
    (r.run s).1 = a := by
  have htake : s.take = (some v, s.take.2) := Prod.ext hs rfl
  cases r with
  | isSettled | drop => cases hr
  | tryTake | wait =>
    cases hr
    rw [run, htake]
    rfl
  | poll w =>
    cases hr
    rw [run, take_of_isSettled s (isSettled_of_take hs), htake]
    rfl
  | waitTimeout t =>
    unfold found? at hr
    dsimp only at hr
    split at hr
    · cases hr
    · rename_i ht
      cases hr
      rw [run, takeWithin, if_neg ht, htake]
      rfl

theorem Inbox.receive_cons {b : Inbox} {v : Value} {vs : List Value} (h : b.queue = v :: vs) :
    b.receive = (some (.value v), ⟨vs, b.closed⟩) := by
  obtain ⟨queue, closed⟩ := b
  cases h
  rfl

namespace Floor

variable {f : Floor α ε} {m : Move α ε} {n : Nat} {k : Ticket} {v : Value} {vs : List Value}
  {late : Answer α ε} {verdict : OneShot.Verdict Value} {d : Deferred α ε} {c : Stream α ε}
  {thread : Option String}

theorem finish_answer (thread : Option String) (d : Deferred α ε) (verdict : OneShot.Verdict Value)
    (x : Exchange) :
    (∃ r y, d.finish thread verdict x = .returned r y ∧ d.answerTo thread verdict = .result r) ∨
      ∃ p y, d.finish thread verdict x = .unwound p y ∧ d.answerTo thread verdict = .unwound p := by
  cases verdict with
  | abandoned => exact .inl ⟨_, _, rfl, rfl⟩
  | value v =>
    simp only [Deferred.finish, Reader.read, Deferred.answerTo]
    cases d.codec.decode v with
    | error p => exact .inr ⟨p, x, rfl, rfl⟩
    | ok r =>
      refine .inl ⟨_, _, rfl, ?_⟩
      rw [Reader.lift_fst]

theorem readDeferred_found (thread : Option String) (late : Answer α ε)
    {g : OneShot Value → Except Panic (Option (OneShot.Verdict Value) × OneShot Value)}
    {s : OneShot Value} (hq : f.session.deferreds[n]?.join = some d) (hd : d.state = .waiting k)
    (hg : g (f.exchange.slot k) = .ok (some verdict, s)) :
    (f.session.readDeferred n late (Deferred.readBy thread g)).1 = d.answerTo thread verdict := by
  have hread : Deferred.readBy thread g (d, f.exchange) =
      (d.finish thread verdict (f.exchange.setSlot k s)).map some (fun x => (d, x)) := by
    have hslot : g (f.exchange.pending.slot k) = .ok (some verdict, s) := hg
    simp only [Deferred.readBy, hd, hslot]
  rw [Session.readDeferred, Session.withHandle, hq, session_exchange]
  dsimp only
  rw [hread]
  rcases finish_answer thread d verdict (f.exchange.setSlot k s) with
    ⟨r, y, hfinish, ha⟩ | ⟨p, y, hfinish, ha⟩ <;> rw [hfinish, ha] <;> rfl

theorem waitDeferred_found (thread : Option String) (hq : f.session.deferreds[n]?.join = some d)
    (hd : d.state = .waiting k) (hk : (f.exchange.slot k).take.1 = some verdict) :
    (f.session.waitDeferred thread n).1 = d.answerTo thread verdict := by
  have hready : d.isReady f.session.exchange = true := by
    rw [Deferred.isReady, hd]
    exact OneShot.isSettled_of_take hk
  obtain ⟨s, hs⟩ : ∃ s, (f.exchange.slot k).take = (some verdict, s) := ⟨_, Prod.ext hk rfl⟩
  rw [Session.waitDeferred, Session.withHandle, hq]
  dsimp only
  rw [if_pos hready, session_exchange, Deferred.wait_settled thread hd hs]
  rcases finish_answer thread d verdict (f.exchange.setSlot k s) with
    ⟨r, y, hfinish, ha⟩ | ⟨p, y, hfinish, ha⟩ <;> rw [hfinish, ha] <;> rfl

/-- In whichever way a result is read, what is in its slot is what is answered. -/
theorem reads_found (thread : Option String) (hm : m.reads? n = some late)
    (hq : f.session.deferreds[n]?.join = some d) (hd : d.state = .waiting k)
    (hk : (f.exchange.slot k).take.1 = some verdict) :
    (f.apply thread m).1 = d.answerTo thread verdict := by
  have htake : (f.exchange.slot k).take = (some verdict, (f.exchange.slot k).take.2) :=
    Prod.ext hk rfl
  obtain ⟨hplace, hlate⟩ := Move.reads?_eq_some hm
  unfold Move.late? at hlate
  split at hlate
  · cases hplace
    exact readDeferred_found thread .pending hq hd (g := fun s => .ok s.take) (congrArg _ htake)
  · rename_i i w hel
    cases hplace
    have hpoll : (f.exchange.slot k).poll w = (some verdict, (f.exchange.slot k).take.2) := by
      rw [OneShot.take_of_isSettled _ (OneShot.isSettled_of_take hk), htake]
    exact readDeferred_found thread .pending hq hd (g := fun s => .ok (s.poll w))
      (congrArg _ hpoll)
  · rename_i i t hel
    cases hplace
    split at hlate
    · cases hlate
    · rename_i hdeadline
      have hwithin : (f.exchange.slot k).takeWithin t =
          .ok (some verdict, (f.exchange.slot k).take.2) := by
        rw [OneShot.takeWithin, if_neg hdeadline, htake]
      exact readDeferred_found thread .pending hq hd (g := fun s => s.takeWithin t) hwithin
  · cases hplace
    exact waitDeferred_found thread hq hd hk
  · cases hlate

theorem readTicket_found (thread : Option String) {r : OneShot.Read} {a : OneShot.Answer Value}
    (h : (Step.readTicket n r : Step α ε).isElementary = true)
    (hq : f.session.tickets[n]?.join = some k) (hk : (f.exchange.slot k).take.1 = some verdict)
    (hr : r.found? verdict = some a) :
    (f.apply thread (.step (.readTicket n r) h)).1 = .slot a := by
  change (f.session.readTicket n r).1 = _
  rw [Session.readTicket, hq]
  exact congrArg Answer.slot (OneShot.Read.run_found hk hr)

theorem hasInbox_of_queue {x : Exchange} {p : PortId} (h : (x.inbox p).queue = v :: vs) :
    x.hasInbox p = true := by
  cases hi : x.hasInbox p with
  | true => rfl
  | false =>
    rw [x.inbox_of_not_hasInbox p hi] at h
    cases h

theorem inbox_taken {x : Exchange} {p : PortId} (h : (x.inbox p).queue = v :: vs) (b : Inbox) :
    (x.setInbox p b).inbox p = b := by
  rw [Exchange.inbox_setInbox, if_pos ⟨rfl, hasInbox_of_queue h⟩]

theorem takeReverse_found (thread : Option String)
    (h : (Step.act .takeReverse : Step α ε).isElementary = true)
    (hlive : f.exchange.isGone = false)
    (hq : (f.exchange.inbox Exchange.reversePort).queue = v :: vs) :
    (f.apply thread (.step (.act .takeReverse) h)).1 = .reply (.value (some v)) ∧
      ((f.apply thread (.step (.act .takeReverse) h)).2.exchange.inbox
        Exchange.reversePort).queue = vs := by
  have htake : f.exchange.takeReverse = (some v, f.exchange.setInbox Exchange.reversePort
      ⟨vs, (f.exchange.inbox Exchange.reversePort).closed⟩) := by
    rw [Exchange.takeReverse, Inbox.tryReceive, hq]
  have hstep : f.session.stage.perform 0 none .takeReverse =
      f.session.stage.on f.exchange.takeReverse .value := by
    rw [Stage.perform, Stage.run, Stage.whileUp,
      show f.session.stage.exchange.isGone = false from hlive]
    rfl
  change (f.turn (f.session.settle (f.session.stage.perform 0 none .takeReverse) _)).1 = _ ∧
    ((f.turn (f.session.settle (f.session.stage.perform 0 none .takeReverse) _)).2.exchange.inbox
      _).queue = vs
  rw [hstep, htake]
  exact ⟨rfl, congrArg Inbox.queue (inbox_taken hq _)⟩

theorem receives_found (thread : Option String) {b : Exchange.Broadcast}
    (hm : m.receives n = true) (hq : f.session.broadcasts[n]?.join = some b)
    (hv : (f.exchange.inbox b.id).queue = v :: vs) :
    (f.apply thread m).1 = .reply (.value (some v)) ∧
      ((f.apply thread m).2.exchange.inbox b.id).queue = vs := by
  have hreceive : ∀ (late : Answer α ε) (g : Inbox → Except Panic (Option Inbox.Received × Inbox)),
      g (f.exchange.inbox b.id) = .ok (f.exchange.inbox b.id).receive →
        (f.turn (f.session.receiveBy n late g)).1 = .reply (.value (some v)) ∧
          ((f.turn (f.session.receiveBy n late g)).2.exchange.inbox b.id).queue = vs := by
    intro late g hg
    rw [Session.receiveBy, Session.withHandle, hq, session_exchange]
    dsimp only
    rw [hg, Inbox.receive_cons hv]
    exact ⟨rfl, congrArg Inbox.queue (inbox_taken hv _)⟩
  unfold Move.receives at hm
  split at hm
  · obtain rfl := of_decide_eq_true hm
    exact hreceive .wouldBlock _ rfl
  · obtain rfl := of_decide_eq_true hm
    change (f.turn (f.session.withHandle _ _ _)).1 = _ ∧
      ((f.turn (f.session.withHandle _ _ _)).2.exchange.inbox b.id).queue = vs
    rw [Session.withHandle, hq, session_exchange]
    dsimp only
    rw [Inbox.tryReceive, hv]
    exact ⟨rfl, congrArg Inbox.queue (inbox_taken hv _)⟩
  · rename_i i t hel
    rw [Bool.and_eq_true, decide_eq_true_eq, Bool.not_eq_true'] at hm
    obtain ⟨rfl, ht⟩ := hm
    refine hreceive .timedOut (Inbox.receiveWithin t) ?_
    rw [Inbox.receiveWithin, ht]
    rfl
  · cases hm

/-- A pull answers for the oldest value, and takes no more than that if the stream goes on. -/
theorem pulls_found (thread : Option String) (hm : m.pulls? n = some late)
    (hq : f.session.streams[n]?.join = some c) (hc : c.holds = true)
    (hv : (f.exchange.inbox c.port.id).queue = v :: vs) :
    (f.apply thread m).1 = c.answerTo thread v ∧
      (∀ a, c.codec.isEnd v = false → c.codec.decode v = .ok (.success a) →
        ((f.apply thread m).2.exchange.inbox c.port.id).queue = vs) := by
  obtain ⟨g, hg, happly⟩ := apply_pull thread hm f
  have hpull : Stream.pullBy thread g (c, f.exchange) =
      Stream.accept thread (.value v) (c, f.exchange.setInbox c.port.id
        ⟨vs, (f.exchange.inbox c.port.id).closed⟩) :=
    Stream.pullBy_found thread hc (by rw [hg, Inbox.receive_cons hv])
  rw [happly, Session.pullStream, Session.withHandle, hq, session_exchange]
  dsimp only
  rw [hpull, Stream.answerTo]
  simp only [Stream.accept]
  cases hend : c.codec.isEnd v with
  | true => exact ⟨rfl, fun a hno => by cases hno⟩
  | false =>
    rw [if_neg Bool.false_ne_true, if_neg Bool.false_ne_true]
    cases hdec : c.codec.decode v with
    | error p => exact ⟨rfl, fun a _ hno => by cases hno⟩
    | ok r =>
      cases r with
      | success a => exact ⟨rfl, fun _ _ _ => congrArg Inbox.queue (inbox_taken hv _)⟩
      | application e => exact ⟨rfl, fun a _ hno => by cases hno⟩
      | abort message => exact ⟨rfl, fun a _ hno => by cases hno⟩
      | malformed why => exact ⟨rfl, fun a _ hno => by cases hno⟩

end Floor

end CallExchange
