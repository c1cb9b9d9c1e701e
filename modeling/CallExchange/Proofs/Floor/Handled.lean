import CallExchange.Proofs.Floor.Effect
import CallExchange.Proofs.Readings

set_option autoImplicit false

/-!
# Moves that use a handle

One lemma for each family of moves that read, close or give up a handle of the session.
-/

namespace CallExchange

open Exchange (Op Runs)

variable {α ε : Type}

namespace Floor

variable {f : Floor α ε} {m : Move α ε} {n : Nat}

def HasEffect (f : Floor α ε) (m : Move α ε) (t : Turn α ε) : Prop :=
  ∃ ops, Effect f m t.1 t.2 ops

theorem session_exchange (f : Floor α ε) : f.session.exchange = f.exchange := rfl

def onStage (f : Floor α ε) (st : Stage) : Floor α ε :=
  { f with session := { f.session with stage := st } }

theorem table_onStage (f : Floor α ε) (st : Stage) (s : Shelf) :
    (f.onStage st).table s = f.table s := by
  cases s <;> rfl

theorem Effect.quiet {a : Answer α ε} (st : Stage) (hm : f.livePost m = false)
    (h : st.exchange.core = f.exchange.core) : Effect f m a (f.onStage st) [] :=
  .of_same (f.table_onStage st) (.quiet h) (by simp) (Nat.zero_le _) (by rw [hm]; rfl) ⟨rfl, rfl⟩

theorem Effect.one {a : Answer α ε} (st : Stage) {o : Op}
    (hr : Runs [o] f.exchange st.exchange) (ha : f.Allows m a o)
    (ho : o.opens = true → m.opensPort = true) (hp : o.isPost = f.livePost m)
    (hn : o.isRelease = false ∧ o.isHold = false) : Effect f m a (f.onStage st) [o] := by
  refine .of_same (f.table_onStage st) hr ?_ ?_ ?_ ⟨?_, ?_⟩
  · intro o' ho'
    rw [List.mem_singleton.1 ho']
    exact ha
  · rw [List.countP_singleton]
    split
    · rename_i hopen
      rw [ho hopen]
      exact Nat.le_refl _
    · exact Nat.zero_le _
  · rw [List.countP_singleton, ← hp]
    cases o.isPost <;> rfl
  · rw [List.countP_singleton, hn.1]
    rfl
  · rw [List.countP_singleton, hn.2]
    rfl

theorem swap_deferred {d : Deferred α ε} (h : f.session.deferreds[n]?.join = some d)
    (d' : Option (Deferred α ε)) (st : Stage) :
    Swap ⟨.deferreds, n⟩ (d'.map .deferred) f { f with
      session := { f.session with stage := st, deferreds := f.session.deferreds.set n d' } } :=
  .of_set (lt_of_handle? (handle?_deferred h)) List.map_set
    (by intro s hs; cases s <;> first | rfl | exact absurd rfl hs)

theorem swap_stream {c : Stream α ε} (h : f.session.streams[n]?.join = some c)
    (c' : Option (Stream α ε)) (st : Stage) :
    Swap ⟨.streams, n⟩ (c'.map .stream) f { f with
      session := { f.session with stage := st, streams := f.session.streams.set n c' } } :=
  .of_set (lt_of_handle? (handle?_stream h)) List.map_set
    (by intro s hs; cases s <;> first | rfl | exact absurd rfl hs)

theorem swap_broadcast {b : Exchange.Broadcast} (h : f.session.broadcasts[n]?.join = some b)
    (b' : Option Exchange.Broadcast) (st : Stage) :
    Swap ⟨.broadcasts, n⟩ (b'.map .broadcast) f { f with
      session := { f.session with stage := st, broadcasts := f.session.broadcasts.set n b' } } :=
  .of_set (lt_of_handle? (handle?_broadcast h)) List.map_set
    (by intro s hs; cases s <;> first | rfl | exact absurd rfl hs)

theorem swap_single {k : Ticket} (h : f.session.tickets[n]?.join = some k)
    (k' : Option Ticket) (st : Stage) :
    Swap ⟨.singles, n⟩ (k'.map .single) f { f with
      session := { f.session with stage := st, tickets := f.session.tickets.set n k' } } :=
  .of_set (lt_of_handle? (handle?_single h)) List.map_set
    (by intro s hs; cases s <;> first | rfl | exact absurd rfl hs)

theorem swap_dispatcher (f : Floor α ε) (x : Exchange) :
    Swap ⟨.dispatcher, 0⟩ none f { f with
      session := { f.session.put x with dispatcher := false } } :=
  .of_set Nat.zero_lt_one rfl (by intro s hs; cases s <;> first | rfl | exact absurd rfl hs)

theorem Swap.refl {q : Place} {h : Handle α ε} (hq : f.handle? q = some h) (st : Stage) :
    Swap q (some h) f (f.onStage st) where
  handle q' := by
    rw [handle?, table_onStage]
    split
    · rename_i he
      rw [he]
      exact hq
    · rfl
  claims := by
    rw [hq, Floor.claims, Floor.claims]
    simp only [table_onStage]

theorem Effect.of_kept {q : Place} {h : Handle α ε} {a : Answer α ε} {st : Stage} {ops : List Op}
    (hm : m.place? = some q) (hq : f.handle? q = some h) (hshelf : q.shelf ≠ .dispatcher)
    (hr : Runs ops f.exchange st.exchange) (ho : ∀ o ∈ ops, Through h o)
    (hn : ops.countP Op.isRelease = 0) : Effect f m a (f.onStage st) ops := by
  refine .of_used hm hq (.refl hq st) hshelf ?_ hr ho ?_ ?_
  · intro h₁ h₁'
    cases h₁'
    exact .refl h
  · rw [hn]
    rfl
  · omega

theorem withHandle_effect {η : Type} {q : Place} {handles : List (Option η)}
    (hm : m.place? = some q)
    {g : η → Session.Turn α ε}
    (h : ∀ e, handles[n]?.join = some e → f.HasEffect m (f.turn (g e))) :
    f.HasEffect m (f.turn (f.session.withHandle handles n g)) := by
  unfold Session.withHandle
  cases he : handles[n]?.join with
  | none => exact ⟨[], .quiet _ (livePost_of_place? hm) rfl⟩
  | some e => exact h e he

section Deferreds

variable {thread : Option String}

theorem readDeferred_effect
    {g : OneShot Value → Except Panic (Option (OneShot.Verdict Value) × OneShot Value)}
    (hg : Deferred.ReadsSlot g) (hm : m.place? = some ⟨.deferreds, n⟩) (late : Answer α ε) :
    f.HasEffect m (f.turn (f.session.readDeferred n late (Deferred.readBy thread g))) := by
  refine withHandle_effect hm fun d hd => ?_
  have hq := handle?_deferred hd
  cases hstate : d.state with
  | failed failure =>
    rw [Deferred.readBy_failed thread g hstate]
    refine ⟨[], .of_used hm hq (swap_deferred hd (some _) _) (by simp) ?_ (.quiet rfl) (by simp)
      ?_ (by simp)⟩
    · intro h₁ h₁'
      cases h₁'
      exact Handle.from_failed rfl _
    · simp [weight, Handle.owns, Deferred.holds, hstate]
  | waiting k =>
    obtain ⟨y, hends, hcore⟩ := Deferred.readBy_waiting thread hg hstate f.exchange
    have hfrom : ∀ h₁, some (Handle.deferred d) = some h₁ → h₁.From (.deferred d) := by
      intro h₁ h₁'
      cases h₁'
      exact .refl _
    have heff : ∀ a, f.HasEffect m (a, { f with
        session := (f.session.put y).setDeferred n (some d) }) := by
      intro a
      have hswap := swap_deferred hd (some d) (f.session.put y).stage
      rcases hcore with hcore | ⟨r, hcore⟩
      · exact ⟨[], .of_used hm hq hswap (by simp) hfrom (.quiet hcore) (by simp) rfl (by simp)⟩
      · refine ⟨[.read k r], .of_used hm hq hswap (by simp) hfrom (.single _ hcore) ?_ rfl ?_⟩
        · intro o ho
          rw [List.mem_singleton.1 ho]
          exact .inr (.inl ⟨k, Handle.ticket?_waiting hstate, rfl⟩)
        · exact Nat.zero_le _
    rcases hends with ⟨b, hb⟩ | ⟨p, hp⟩
    · rw [session_exchange, hb]
      exact heff _
    · rw [session_exchange, hp]
      exact heff _

theorem gaveUp_effect {d : Deferred α ε} {k : Ticket} {y : Exchange} (ops : List Op)
    (hm : m.place? = some ⟨.deferreds, n⟩) (hd : f.session.deferreds[n]?.join = some d)
    (hstate : d.state = .waiting k) (hr : Runs ops f.exchange y)
    (ho : ∀ o ∈ ops, o.IsOn false d.port ∨ o.Reads k) (a : Answer α ε) :
    f.HasEffect m (a, { f with session := (f.session.put y.release).setDeferred n none }) := by
  have hq := handle?_deferred hd
  have hthrough : ∀ o ∈ ops, Through (.deferred d) o := by
    intro o hmem
    rcases ho o hmem with ho | ho
    · exact .inl ⟨d.port, Handle.port?_waiting hstate, ho⟩
    · exact .inr (.inl ⟨k, Handle.ticket?_waiting hstate, ho⟩)
  have hzero : ops.countP Op.isRelease = 0 := by
    rw [List.countP_eq_zero]
    intro o hmem
    rcases ho o hmem with ho | ho
    · cases o <;> first | exact ho.elim | exact Bool.false_ne_true
    · cases o <;> first | exact ho.elim | exact Bool.false_ne_true
  have hcount : (ops ++ [Op.release]).countP Op.isRelease = 1 := by
    rw [List.countP_append, hzero]
    rfl
  refine ⟨ops ++ [.release], .of_used hm hq (swap_deferred hd none _) (by simp) (by simp)
    (hr.append (.single _ rfl)) ?_ ?_ ?_⟩
  · intro o hmem
    rcases List.mem_append.1 hmem with hmem | hmem
    · exact hthrough o hmem
    · rw [List.mem_singleton.1 hmem]
      exact .inr (.inr rfl)
  · rw [hcount, Handle.owns_waiting hstate]
    rfl
  · exact Nat.le_of_eq hcount

theorem failed_effect {d : Deferred α ε} {failure : Option (Failure ε)}
    (hm : m.place? = some ⟨.deferreds, n⟩) (hd : f.session.deferreds[n]?.join = some d)
    (hstate : d.state = .failed failure) (a : Answer α ε) :
    f.HasEffect m (a, { f with session := (f.session.put f.exchange).setDeferred n none }) := by
  refine ⟨[], .of_used hm (handle?_deferred hd) (swap_deferred hd none _) (by simp) (by simp)
    (.quiet rfl) (by simp) ?_ (by simp)⟩
  rw [Handle.owns, Deferred.holds, hstate]
  rfl

theorem waitDeferred_effect (hm : m.place? = some ⟨.deferreds, n⟩) :
    f.HasEffect m (f.turn (f.session.waitDeferred thread n)) := by
  refine withHandle_effect hm fun d hd => ?_
  rw [session_exchange]
  by_cases hready : d.isReady f.exchange = true
  · rw [if_pos hready]
    cases hstate : d.state with
    | failed failure =>
      rw [Deferred.wait_failed thread hstate]
      exact failed_effect hm hd hstate _
    | waiting k =>
      obtain ⟨v, s, hs⟩ := Deferred.slot_of_isReady hstate hready
      obtain ⟨y, hcore, hends⟩ := d.finish_endsIn thread v (f.exchange.setSlot k s)
      have hread : y.core = ((Op.read k .tryTake).exec f.exchange).core := by
        have hexec : (Op.read k .tryTake).exec f.exchange =
            f.exchange.setSlot k (f.exchange.pending.slot k).take.2 :=
          congrArg (f.exchange.setSlot k) (OneShot.answerOf_snd _ _ _)
        rw [hcore, hexec, hs]
      have heff : ∀ a, f.HasEffect m (a, { f with
          session := (f.session.put (d.letGo y)).setDeferred n none }) := by
        intro a
        rw [Deferred.letGo_waiting hstate]
        refine gaveUp_effect _ hm hd hstate (.single _ hread) ?_ a
        intro o ho
        rw [List.mem_singleton.1 ho]
        exact .inr rfl
      rw [Deferred.wait_settled thread hstate hs]
      rcases hends with ⟨b, hb⟩ | ⟨p, hp⟩
      · rw [hb]
        exact heff _
      · rw [hp]
        exact heff _
  · rw [if_neg hready]
    exact ⟨[], .quiet _ (livePost_of_place? hm) rfl⟩

theorem dropDeferred_effect (hm : m.place? = some ⟨.deferreds, n⟩) :
    f.HasEffect m (f.turn (f.session.withHandle f.session.deferreds n fun d =>
      ((f.session.put (d.drop f.session.exchange)).setDeferred n none).replied .nothing)) := by
  refine withHandle_effect hm fun d hd => ?_
  rw [session_exchange]
  cases hstate : d.state with
  | failed failure =>
    have hdrop : d.drop f.exchange = f.exchange := by
      have hholds : d.holds = false := by rw [Deferred.holds, hstate]
      rw [Deferred.drop, Deferred.letGo_failed hstate, hholds]
      rfl
    rw [hdrop]
    exact failed_effect hm hd hstate _
  | waiting k =>
    by_cases hready : d.isReady f.exchange = true
    · have hdrop : d.drop f.exchange = f.exchange.release := by
        rw [Deferred.drop, hready, Deferred.letGo_waiting hstate]
        rw [Bool.not_true, Bool.and_false]
        rfl
      rw [hdrop]
      exact gaveUp_effect [] hm hd hstate (.quiet rfl) (by simp) _
    · have hunready : d.isReady f.exchange = false := by simpa using hready
      obtain ⟨y, hy, hdrop⟩ := Deferred.drop_open hstate hunready
      rw [hdrop]
      refine gaveUp_effect _ hm hd hstate (.single (.closePort d.port) hy) ?_ _
      intro o ho
      rw [List.mem_singleton.1 ho]
      exact .inl rfl

end Deferreds

section Streams

variable {thread : Option String} {c : Stream α ε}

theorem stream_effect {c' : Option (Stream α ε)} {y : Exchange} {ops : List Op}
    (hm : m.place? = some ⟨.streams, n⟩) (hc : f.session.streams[n]?.join = some c)
    (hport : ∀ c₁, c' = some c₁ → c₁.port = c.port) (hr : Runs ops f.exchange y)
    (ho : ∀ o ∈ ops, o.IsOn true c.port.id ∨ o = .release)
    (hb : weight (c'.map Handle.stream) + ops.countP Op.isRelease = c.holds.toNat)
    (a : Answer α ε) :
    f.HasEffect m (a, { f with session := (f.session.put y).setStream n c' }) := by
  refine ⟨ops, .of_used hm (handle?_stream hc) (swap_stream hc c' _) (by simp) ?_ hr ?_ hb ?_⟩
  · intro h₁ h₁'
    obtain ⟨c₁, hc₁, rfl⟩ := Option.map_eq_some_iff.1 h₁'
    exact Handle.from_stream (by rw [hport c₁ hc₁]; rfl) rfl
  · intro o hmem
    rcases ho o hmem with ho | ho
    · exact .inl ⟨_, rfl, ho⟩
    · exact .inr (.inr ho)
  · have := c.holds.toNat_le
    omega

theorem pullStream_effect
    {g : Inbox → Except Panic (Option Inbox.Received × Inbox)} (hg : Inbox.Takes g)
    (hm : m.place? = some ⟨.streams, n⟩) (answer : Stream.Pull α ε → Answer α ε) :
    f.HasEffect m (f.turn (f.session.pullStream n (Stream.pullBy thread g) answer)) := by
  refine withHandle_effect hm fun c hc => ?_
  rw [session_exchange]
  by_cases hholds : c.holds = true
  · obtain ⟨c', y, hends, hy⟩ := Stream.pullBy_endsIn thread hg hholds f.exchange
    have heff : ∀ a, f.HasEffect m (a, { f with
        session := (f.session.put y).setStream n (some c') }) := by
      intro a
      rcases hy with ⟨rfl, hcore⟩ | ⟨rfl, hr⟩ | ⟨rfl, hr⟩
      · exact stream_effect hm hc (by simp) (.quiet hcore) (by simp) rfl a
      · refine stream_effect hm hc (by simp) hr ?_ rfl a
        intro o ho
        rw [List.mem_singleton.1 ho]
        exact .inl ⟨rfl, rfl⟩
      · refine stream_effect hm hc (by simp) hr ?_ ?_ a
        · intro o ho
          simp only [List.mem_cons, List.not_mem_nil, or_false] at ho
          rcases ho with rfl | rfl | rfl
          · exact .inl ⟨rfl, rfl⟩
          · exact .inl ⟨rfl, rfl⟩
          · exact .inr rfl
        · rw [hholds]
          rfl
    rcases hends with ⟨b, hb⟩ | ⟨p, hp⟩
    · rw [hb]
      exact heff _
    · rw [hp]
      exact heff _
  · have hzero : c.holds = false := by simpa using hholds
    cases hfail : c.failure with
    | some failure =>
      have hpull : Stream.pullBy thread g (c, f.exchange) = .returned (.item (.error failure))
          ({ c with failure := none, finished := true }, f.exchange) := by
        simp only [Stream.pullBy, hfail]
      rw [hpull]
      refine stream_effect hm hc (by simp) (.quiet rfl) (by simp) ?_ _
      rw [hzero]
      rfl
    | none =>
      have hfin : c.finished = true := by simpa [Stream.holds, hfail] using hzero
      have hpull : Stream.pullBy thread g (c, f.exchange) = .returned .done (c, f.exchange) := by
        simp only [Stream.pullBy, hfail, hfin, if_true]
      rw [hpull]
      exact stream_effect hm hc (by simp) (.quiet rfl) (by simp) rfl _

theorem closing_effect {c' : Option (Stream α ε)} {x : Exchange}
    (hm : m.place? = some ⟨.streams, n⟩) (hc : f.session.streams[n]?.join = some c)
    (hport : ∀ c₁, c' = some c₁ → c₁.port = c.port ∧ c₁.holds = false)
    (hx : x.core = (c.port.close f.exchange).2.core) (a : Answer α ε) :
    f.HasEffect m (a, { f with session := (f.session.put (c.letGo x)).setStream n c' }) := by
  have hr : Runs ([.closeBroadcast c.port] ++ if c.holds then [.release] else []) f.exchange
      (c.letGo x) :=
    (Runs.single (.closeBroadcast c.port) hx).append (c.letGo_runs x)
  refine stream_effect hm hc (fun c₁ hc₁ => (hport c₁ hc₁).1) hr ?_ ?_ a
  · intro o ho
    rcases List.mem_append.1 ho with ho | ho
    · rw [List.mem_singleton.1 ho]
      exact .inl ⟨rfl, rfl⟩
    · split at ho
      · exact .inr (List.mem_singleton.1 ho)
      · cases ho
  · have hw : weight (c'.map Handle.stream) = 0 := by
      cases c' with
      | none => rfl
      | some c₁ =>
        change c₁.holds.toNat = 0
        rw [(hport c₁ rfl).2]
        rfl
    rw [hw]
    cases c.holds <;> rfl

theorem closeStream_effect (hm : m.place? = some ⟨.streams, n⟩) :
    f.HasEffect m (f.turn (f.session.withHandle f.session.streams n fun st =>
      ((f.session.put (st.close f.session.exchange).2).setStream n
        (some (st.close f.session.exchange).1)).replied .nothing)) := by
  refine withHandle_effect hm fun c hc => ?_
  rw [session_exchange]
  by_cases hfin : c.finished = true
  · have hclose : c.close f.exchange = (c, f.exchange) := by
      rw [Stream.close, if_pos hfin]
    rw [hclose]
    exact stream_effect hm hc (by simp) (.quiet rfl) (by simp) rfl _
  · obtain ⟨x, hx, hclose⟩ := Stream.close_open ((Bool.not_eq_true _).mp hfin) f.exchange
    rw [hclose]
    refine closing_effect hm hc ?_ hx _
    intro c₁ hc₁
    cases hc₁
    exact ⟨rfl, rfl⟩

theorem dropStream_effect (hm : m.place? = some ⟨.streams, n⟩) :
    f.HasEffect m (f.turn (f.session.withHandle f.session.streams n fun st =>
      ((f.session.put (st.drop f.session.exchange)).setStream n none).replied .nothing)) := by
  refine withHandle_effect hm fun c hc => ?_
  exact closing_effect hm hc (by simp) rfl _

end Streams

section Singles

theorem readTicket_effect (hm : m.place? = some ⟨.singles, n⟩) (r : OneShot.Read) :
    f.HasEffect m (f.turn (f.session.readTicket n r)) := by
  unfold Session.readTicket
  cases hk : f.session.tickets[n]?.join with
  | none => exact ⟨[], .quiet _ (livePost_of_place? hm) rfl⟩
  | some k =>
    have hq := handle?_single hk
    have hthrough : ∀ o ∈ [Op.read k r], Through (Handle.single k : Handle α ε) o := by
      intro o ho
      rw [List.mem_singleton.1 ho]
      exact .inr (.inl ⟨k, rfl, rfl⟩)
    dsimp only
    by_cases hc : r.consumes (f.exchange.pending.slot k) = true
    · rw [session_exchange, if_pos hc]
      refine ⟨[.read k r], .of_used hm hq (swap_single hk none _) (by simp) (by simp)
        (.single _ rfl) hthrough rfl ?_⟩
      exact Nat.zero_le _
    · rw [session_exchange, if_neg hc]
      exact ⟨[.read k r], .of_kept hm hq (by simp) (.single _ rfl) hthrough rfl⟩

theorem inbox_effect {b : Exchange.Broadcast} {y : Exchange}
    (hm : m.place? = some ⟨.broadcasts, n⟩) (hb : f.session.broadcasts[n]?.join = some b)
    (hr : Runs [.receive b.id] f.exchange y) (a : Answer α ε) :
    f.HasEffect m (a, { f with session := f.session.put y }) := by
  refine ⟨[.receive b.id], .of_kept hm (handle?_broadcast hb) (by simp) hr ?_ rfl⟩
  intro o ho
  rw [List.mem_singleton.1 ho]
  exact .inl ⟨b.id, rfl, rfl, rfl⟩

theorem receiveBy_effect {g : Inbox → Except Panic (Option Inbox.Received × Inbox)}
    (hg : Inbox.Takes g) (hm : m.place? = some ⟨.broadcasts, n⟩) (late : Answer α ε) :
    f.HasEffect m (f.turn (f.session.receiveBy n late g)) := by
  refine withHandle_effect hm fun b hb => ?_
  rw [session_exchange]
  cases hi : g (f.exchange.inbox b.id) with
  | error p => exact ⟨[], .quiet _ (livePost_of_place? hm) rfl⟩
  | ok a =>
    refine inbox_effect hm hb (.single _ ?_) _
    rw [hg _ _ hi]
    rfl

theorem tryReceive_effect (hm : m.place? = some ⟨.broadcasts, n⟩) :
    f.HasEffect m (f.turn (f.session.withHandle f.session.broadcasts n fun b =>
      (f.session.put (f.session.exchange.setInbox b.id
        (f.session.exchange.inbox b.id).tryReceive.2)).replied
          (.value (f.session.exchange.inbox b.id).tryReceive.1))) := by
  refine withHandle_effect hm fun b hb => ?_
  exact inbox_effect hm hb (.single _ rfl) _

theorem closeBroadcast_effect (hm : m.place? = some ⟨.broadcasts, n⟩) :
    f.HasEffect m (f.turn (f.session.withHandle f.session.broadcasts n fun b =>
      (f.session.put (b.close f.session.exchange).2).replied
        (.flag (b.close f.session.exchange).1))) := by
  refine withHandle_effect hm fun b hb => ?_
  refine ⟨[.closeBroadcast b], .of_kept hm (handle?_broadcast hb) (by simp) (.single _ rfl) ?_ rfl⟩
  intro o ho
  rw [List.mem_singleton.1 ho]
  exact .inl ⟨b.id, rfl, rfl, rfl⟩

theorem dropBroadcast_effect (hm : m.place? = some ⟨.broadcasts, n⟩) :
    f.HasEffect m (f.turn (f.session.withHandle f.session.broadcasts n fun b =>
      { f.session.put (b.close f.session.exchange).2 with
        broadcasts := f.session.broadcasts.set n none }.replied .nothing)) := by
  refine withHandle_effect hm fun b hb => ?_
  refine ⟨[.closeBroadcast b], .of_used hm (handle?_broadcast hb) (swap_broadcast hb none _)
    (by simp) (by simp) (.single _ rfl) ?_ rfl (Nat.zero_le _)⟩
  intro o ho
  rw [List.mem_singleton.1 ho]
  exact .inl ⟨b.id, rfl, rfl, rfl⟩

end Singles

end Floor

end CallExchange
