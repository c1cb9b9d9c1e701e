import CallExchange.Proofs.Exchange.Runs
import CallExchange.Session.Step

set_option autoImplicit false

/-!
# Results and streams as operations

What reading, pulling and letting go do to an exchange, in terms of its operations. What is read
in the end does not matter here.
-/

namespace CallExchange

open Exchange (Op Runs)

variable {α ε : Type}

@[simp] theorem Reader.core_lift (r : Reader) (d : Decoded α ε) (x : Exchange) :
    (r.lift d x).2.core = x.core := by
  cases d <;> rfl

theorem Reader.core_ofEntry (r : Reader) (codec : Codec α ε) (ended : Except Panic Buffer)
    (x : Exchange) : (r.ofEntry codec ended x).2.core = x.core := by
  cases ended with
  | error p => rfl
  | ok b =>
    simp only [Reader.ofEntry, Reader.readBuffer]
    cases codec.decodeBuffer b with
    | error p => rfl
    | ok d => exact r.core_lift d _

namespace Exchange

variable {x : Exchange} {e : Fault} {p : PortId} {k : Ticket} {b : Broadcast}

theorem beginAsync_error (task : String) (h : x.openSingle.1 = .error e) :
    x.beginAsync task = (.error e, x.openSingle.2) := by
  rw [beginAsync, ← Prod.eta x.openSingle, h]

theorem beginAsync_ok (task : String) (h : x.openSingle.1 = .ok (p, k)) :
    ∃ y : Exchange, y.core = x.openSingle.2.core ∧ x.beginAsync task = (.ok (p, k), y) := by
  rw [beginAsync, ← Prod.eta x.openSingle, h]
  exact ⟨(x.openSingle.2.record .asyncCall).note (.asyncCall task p), rfl, rfl⟩

theorem beginStream_error (task : String) (h : (x.openBroadcast task).1 = .error e) :
    x.beginStream task = (.error e, (x.openBroadcast task).2) := by
  rw [beginStream, ← Prod.eta (x.openBroadcast task), h]

theorem beginStream_ok (task : String) (h : (x.openBroadcast task).1 = .ok b) :
    ∃ y : Exchange, y.core = (x.openBroadcast task).2.core ∧ x.beginStream task = (.ok b, y.hold) := by
  rw [beginStream, ← Prod.eta (x.openBroadcast task), h]
  exact ⟨((x.openBroadcast task).2.record .streamCall).note (.streamCall task b.id b.name),
    rfl, rfl⟩

end Exchange

/-- Whether a computation ends in `s`, by returning or by an abort. -/
def Outcome.EndsIn {σ β : Type} (o : Outcome σ β) (s : σ) : Prop :=
  (∃ b, o = .returned b s) ∨ ∃ p, o = .unwound p s

def Deferred.ReadsSlot
    (g : OneShot Value → Except Panic (Option (OneShot.Verdict Value) × OneShot Value)) : Prop :=
  ∀ s a, g s = .ok a → ∃ r : OneShot.Read, (r.run s).2 = a.2

theorem OneShot.answerOf_snd (none : OneShot.Answer Value)
    (some : OneShot.Verdict Value → OneShot.Answer Value)
    (a : Option (OneShot.Verdict Value) × OneShot Value) : (answerOf none some a).2 = a.2 := by
  obtain ⟨_ | v, s⟩ := a <;> rfl

theorem Deferred.readsSlot_take : Deferred.ReadsSlot fun s => .ok s.take := by
  intro s a ha
  cases ha
  exact ⟨.tryTake, OneShot.answerOf_snd _ _ _⟩

theorem Deferred.readsSlot_poll (w : Waker) : Deferred.ReadsSlot fun s => .ok (s.poll w) := by
  intro s a ha
  cases ha
  exact ⟨.poll w, OneShot.answerOf_snd _ _ _⟩

theorem Deferred.readsSlot_takeWithin (t : Timeout) :
    Deferred.ReadsSlot fun s => s.takeWithin t := by
  intro s a ha
  simp only [OneShot.takeWithin] at ha
  split at ha
  · cases ha
  · cases ha
    exact ⟨.tryTake, OneShot.answerOf_snd _ _ _⟩

theorem Deferred.finish_endsIn (thread : Option String) (d : Deferred α ε)
    (v : OneShot.Verdict Value) (x : Exchange) :
    ∃ y, y.core = x.core ∧ (d.finish thread v x).EndsIn y := by
  cases v with
  | abandoned => exact ⟨x, rfl, .inl ⟨_, rfl⟩⟩
  | value v =>
    simp only [Deferred.finish, Reader.read]
    cases d.codec.decode v with
    | error p => exact ⟨x, rfl, .inr ⟨p, rfl⟩⟩
    | ok r => exact ⟨_, Reader.core_lift ⟨d.task, thread⟩ r x, .inl ⟨_, rfl⟩⟩

section Waiting

variable {g : OneShot Value → Except Panic (Option (OneShot.Verdict Value) × OneShot Value)}
  {d : Deferred α ε} {k : Ticket} {s : OneShot Value} {x : Exchange}

theorem Deferred.readBy_aborts (thread : Option String) {p : Panic} (hd : d.state = .waiting k)
    (hg : g (x.pending.slot k) = .error p) : Deferred.readBy thread g (d, x) = .unwound p (d, x) := by
  simp only [Deferred.readBy, hd, hg]

theorem Deferred.readBy_nothing (thread : Option String) (hd : d.state = .waiting k)
    (hg : g (x.pending.slot k) = .ok (none, s)) :
    Deferred.readBy thread g (d, x) = .returned none (d, x.setSlot k s) := by
  simp only [Deferred.readBy, hd, hg]

theorem Deferred.readBy_found (thread : Option String) {v : OneShot.Verdict Value}
    (hd : d.state = .waiting k) (hg : g (x.pending.slot k) = .ok (some v, s)) :
    Deferred.readBy thread g (d, x) =
      (d.finish thread v (x.setSlot k s)).map some fun y => (d, y) := by
  simp only [Deferred.readBy, hd, hg]

theorem Deferred.readBy_waiting (thread : Option String) (hg : Deferred.ReadsSlot g)
    (hd : d.state = .waiting k) (x : Exchange) :
    ∃ y, (Deferred.readBy thread g (d, x)).EndsIn (d, y) ∧
      (y.core = x.core ∨ ∃ r, y.core = ((Op.read k r).exec x).core) := by
  cases hs : g (x.pending.slot k) with
  | error p => exact ⟨x, .inr ⟨p, Deferred.readBy_aborts thread hd hs⟩, .inl rfl⟩
  | ok a =>
    obtain ⟨r, hr⟩ := hg _ _ hs
    have hexec : (Op.read k r).exec x = x.setSlot k a.2 := by
      rw [← hr]
      rfl
    obtain ⟨_ | v, s⟩ := a
    · exact ⟨_, .inl ⟨_, Deferred.readBy_nothing thread hd hs⟩, .inr ⟨r, by rw [hexec]⟩⟩
    · rw [Deferred.readBy_found thread hd hs]
      obtain ⟨y, hy, ⟨b, hb⟩ | ⟨p, hp⟩⟩ := d.finish_endsIn thread v (x.setSlot k s)
      · refine ⟨y, .inl ⟨some b, ?_⟩, .inr ⟨r, by rw [hexec]; exact hy⟩⟩
        rw [hb]
        rfl
      · refine ⟨y, .inr ⟨p, ?_⟩, .inr ⟨r, by rw [hexec]; exact hy⟩⟩
        rw [hp]
        rfl

end Waiting

theorem Deferred.readBy_failed (thread : Option String)
    (g : OneShot Value → Except Panic (Option (OneShot.Verdict Value) × OneShot Value))
    {d : Deferred α ε} {failure : Option (Failure ε)} (hd : d.state = .failed failure)
    (x : Exchange) :
    Deferred.readBy thread g (d, x) =
      .returned (some (.error (failure.getD .disconnected))) ({ d with state := .failed none }, x) := by
  simp only [Deferred.readBy, hd]

theorem Deferred.letGo_waiting {d : Deferred α ε} {k : Ticket} (hd : d.state = .waiting k)
    (x : Exchange) : d.letGo x = x.release := by
  rw [Deferred.letGo, Deferred.holds, hd]
  rfl

theorem Deferred.letGo_failed {d : Deferred α ε} {failure : Option (Failure ε)}
    (hd : d.state = .failed failure) (x : Exchange) : d.letGo x = x := by
  rw [Deferred.letGo, Deferred.holds, hd]
  rfl

theorem Deferred.slot_of_isReady {d : Deferred α ε} {k : Ticket} {x : Exchange}
    (hd : d.state = .waiting k) (hready : d.isReady x = true) :
    ∃ v s, (x.pending.slot k).take = (some v, s) := by
  rw [Deferred.isReady, hd] at hready
  obtain ⟨v, hv⟩ := Option.isSome_iff_exists.1
    ((OneShot.take_fst_isSome (x.pending.slot k)).trans hready)
  exact ⟨v, _, Prod.ext hv rfl⟩

theorem Deferred.wait_settled (thread : Option String) {d : Deferred α ε} {k : Ticket}
    {v : OneShot.Verdict Value} {s : OneShot Value} {x : Exchange} (hd : d.state = .waiting k)
    (hs : (x.pending.slot k).take = (some v, s)) :
    d.wait thread x = (d.finish thread v (x.setSlot k s)).map some d.letGo := by
  have hready : d.isReady x = true := by
    rw [Deferred.isReady, hd]
    change (x.pending.slot k).isSettled = true
    rw [← OneShot.take_fst_isSome, hs]
    rfl
  simp only [Deferred.wait, Deferred.tryTake, Deferred.readBy, hd, hs, hready, if_true]
  cases d.finish thread v (x.setSlot k s) <;> rfl

theorem Deferred.wait_failed (thread : Option String) {d : Deferred α ε}
    {failure : Option (Failure ε)} (hd : d.state = .failed failure) (x : Exchange) :
    d.wait thread x = .returned (some (.error (failure.getD .disconnected))) x := by
  rw [Deferred.wait, Deferred.tryTake, Deferred.readBy_failed thread _ hd]
  simp only [Outcome.map, Deferred.letGo_failed hd, ite_self]
  rfl

/-- A result that waits and is not ready retires its port before it lets go. -/
theorem Deferred.drop_open {d : Deferred α ε} {k : Ticket} (hd : d.state = .waiting k)
    {x : Exchange} (hopen : d.isReady x = false) :
    ∃ y : Exchange, y.core = (x.closePort d.port).2.core ∧ d.drop x = y.release := by
  have hholds : d.holds = true := by rw [Deferred.holds, hd]
  rw [Deferred.drop, hholds, hopen, Deferred.letGo_waiting hd]
  refine ⟨_, ?_, rfl⟩
  simp only [Bool.not_false, Bool.and_true, if_true]
  split <;> rfl

theorem Stream.accept_endsIn (thread : Option String) {st : Stream α ε} (hst : st.holds = true)
    (r : Inbox.Received) (x : Exchange) :
    ∃ st' y, (Stream.accept thread r (st, x)).EndsIn (st', y) ∧
      (st' = st ∧ y.core = x.core ∨
        st' = { st with finished := true } ∧ Runs [.closeBroadcast st.port, .release] x y) := by
  have hfinish : ∀ z : Exchange, z.core = x.core →
      (st.finish z).1 = { st with finished := true } ∧
        Runs [.closeBroadcast st.port, .release] x (st.finish z).2 := by
    intro z hz
    refine ⟨rfl, .exec hz (.exec rfl (.quiet ?_))⟩
    simp only [Stream.finish, Stream.letGo, hst, if_true]
    rfl
  cases r with
  | ended =>
    have hf := hfinish x rfl
    exact ⟨_, _, .inl ⟨_, rfl⟩, .inr hf⟩
  | value v =>
    simp only [Stream.accept]
    split
    · have hf := hfinish (x.note (.endOfStream st.port.name)) rfl
      exact ⟨_, _, .inl ⟨_, rfl⟩, .inr hf⟩
    · split
      · exact ⟨st, x, .inr ⟨_, rfl⟩, .inl ⟨rfl, rfl⟩⟩
      · exact ⟨st, x, .inl ⟨_, rfl⟩, .inl ⟨rfl, rfl⟩⟩
      · rename_i d _ _
        have hf := hfinish x rfl
        have hl := Reader.core_lift ⟨(st.finish x).1.task, thread⟩ d (st.finish x).2
        refine ⟨_, _, .inl ⟨_, rfl⟩, .inr ⟨hf.1, ?_⟩⟩
        have hr := hf.2.append (.quiet hl)
        rwa [List.append_nil] at hr

def Inbox.Takes (g : Inbox → Except Panic (Option Inbox.Received × Inbox)) : Prop :=
  ∀ b a, g b = .ok a → a.2 = b.tryReceive.2

theorem Inbox.receive_snd (b : Inbox) : b.receive.2 = b.tryReceive.2 := by
  rcases b with ⟨_ | ⟨v, vs⟩, closed⟩ <;> rfl

theorem Inbox.takes_receive : Inbox.Takes fun b => .ok b.receive := by
  intro b a ha
  cases ha
  exact b.receive_snd

theorem Inbox.takes_receiveWithin (t : Timeout) : Inbox.Takes fun b => b.receiveWithin t := by
  intro b a ha
  simp only [Inbox.receiveWithin] at ha
  split at ha
  · cases ha
  · cases ha
    exact b.receive_snd

section Open

variable {g : Inbox → Except Panic (Option Inbox.Received × Inbox)} {b : Inbox}
  {c : Stream α ε} {x : Exchange}

theorem Stream.open_of_holds (h : c.holds = true) : c.finished = false ∧ c.failure = none := by
  simpa [Stream.holds] using h

theorem Stream.pullBy_aborts (thread : Option String) {p : Panic} (h : c.holds = true)
    (hg : g (x.inbox c.port.id) = .error p) :
    Stream.pullBy thread g (c, x) = .unwound p (c, x) := by
  simp only [Stream.pullBy, Stream.open_of_holds h, if_neg Bool.false_ne_true, hg]

theorem Stream.pullBy_nothing (thread : Option String) (h : c.holds = true)
    (hg : g (x.inbox c.port.id) = .ok (none, b)) :
    Stream.pullBy thread g (c, x) = .returned .nothingYet (c, x.setInbox c.port.id b) := by
  simp only [Stream.pullBy, Stream.open_of_holds h, if_neg Bool.false_ne_true, hg]

theorem Stream.pullBy_found (thread : Option String) {r : Inbox.Received} (h : c.holds = true)
    (hg : g (x.inbox c.port.id) = .ok (some r, b)) :
    Stream.pullBy thread g (c, x) = Stream.accept thread r (c, x.setInbox c.port.id b) := by
  simp only [Stream.pullBy, Stream.open_of_holds h, if_neg Bool.false_ne_true, hg]

end Open

theorem Stream.pullBy_endsIn (thread : Option String)
    {g : Inbox → Except Panic (Option Inbox.Received × Inbox)} (hg : Inbox.Takes g)
    {st : Stream α ε} (hst : st.holds = true) (x : Exchange) :
    ∃ st' y, (Stream.pullBy thread g (st, x)).EndsIn (st', y) ∧
      (st' = st ∧ y.core = x.core ∨ st' = st ∧ Runs [.receive st.port.id] x y ∨
        st' = { st with finished := true } ∧
          Runs [.receive st.port.id, .closeBroadcast st.port, .release] x y) := by
  cases hb : g (x.inbox st.port.id) with
  | error p =>
    exact ⟨st, x, .inr ⟨p, Stream.pullBy_aborts thread hst hb⟩, .inl ⟨rfl, rfl⟩⟩
  | ok a =>
    have hexec : (Op.receive st.port.id).exec x = x.setInbox st.port.id a.2 := by
      rw [hg _ _ hb]
      rfl
    obtain ⟨_ | r, b⟩ := a
    · exact ⟨st, _, .inl ⟨_, Stream.pullBy_nothing thread hst hb⟩,
        .inr (.inl ⟨rfl, .single _ (by rw [hexec])⟩)⟩
    · rw [Stream.pullBy_found thread hst hb]
      obtain ⟨st', y, hy, ⟨hst', hc⟩ | ⟨hst', hr⟩⟩ :=
        Stream.accept_endsIn thread hst r (x.setInbox st.port.id b)
      · exact ⟨st', y, hy, .inr (.inl ⟨hst', .single _ (by rw [hexec]; exact hc)⟩)⟩
      · exact ⟨st', y, hy, .inr (.inr ⟨hst', .exec rfl (by rw [hexec]; exact hr)⟩)⟩

theorem Stream.close_open {c : Stream α ε} (h : c.finished = false) (x : Exchange) :
    ∃ y : Exchange, y.core = (c.port.close x).2.core ∧
      c.close x = ({ c with finished := true }, c.letGo y) := by
  rw [Stream.close, if_neg (by rw [h]; exact Bool.false_ne_true)]
  refine ⟨_, ?_, rfl⟩
  split <;> rfl

theorem Stream.letGo_runs (c : Stream α ε) (x : Exchange) :
    Runs (if c.holds then [.release] else []) x (c.letGo x) := by
  cases hh : c.holds with
  | true =>
    refine .single _ ?_
    rw [Stream.letGo, hh]
    rfl
  | false =>
    refine .quiet ?_
    rw [Stream.letGo, hh]
    rfl

end CallExchange
