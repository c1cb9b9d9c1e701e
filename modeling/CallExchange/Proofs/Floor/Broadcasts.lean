import CallExchange.Proofs.AbortedEntries

set_option autoImplicit false

/-!
# What takes from broadcast ports

A stream, a broadcast handle or a stream call that runs takes from its port. It leaves the port as
open as it is until it is through with it, and then it leaves nothing behind. No move opens or
closes a port otherwise, unless it is named for that.
-/

namespace CallExchange

open Exchange (Op Runs Fit)

variable {α ε : Type}

namespace Move

def opensBroadcast? : Move α ε × Answer α ε → Option PortId
  | (.beginStream _ _, .reply (.port p _)) => some p
  | (.step (.openBroadcast _) _, .broadcast _ b _) => some b.id
  | _ => none

def streamPort? : Move α ε × Answer α ε → Option PortId
  | (.finish _ _, .stream _ c _) => some c.port.id
  | _ => none

def handlePort? : Move α ε × Answer α ε → Option PortId
  | (.step (.openBroadcast _) _, .broadcast _ b _) => some b.id
  | _ => none

/-- Whether a move ended the entry of the stream call on `p` with an abort. -/
def abortsStream (p : PortId) : Move α ε × Answer α ε → Bool
  | (.finish _ (.error _), .stream _ c _) => c.port.id = p
  | _ => false

def closesHandle? : Move α ε × Answer α ε → Option Nat
  | (.step (.closeBroadcast n) _, .reply (.flag _)) => some n
  | (.step (.dropBroadcast n) _, .reply .nothing) => some n
  | _ => none

variable {m : Move α ε} {a : Answer α ε} {n : Nat} {p : PortId} {q : Place}

theorem place?_of_closesHandle? (h : closesHandle? (m, a) = some n) :
    m.place? = some ⟨.broadcasts, n⟩ := by
  unfold closesHandle? at h
  split at h <;> first
  | (rename_i heq
     cases h
     rw [(Prod.mk.inj heq).1]
     rfl)
  | cases h

theorem closesHandle?_noHandle (m : Move α ε) : closesHandle? (m, .reply .noHandle) = none := by
  unfold closesHandle?
  split <;> first | (rename_i heq; cases (Prod.mk.inj heq).2) | rfl

theorem letsGo?_noHandle (m : Move α ε) : letsGo? (m, .reply .noHandle) = none := by
  refine if_neg fun h => ?_
  unfold endsHold at h
  split at h <;> first | (rename_i heq; cases (Prod.mk.inj heq).2) | cases h

theorem abortsStream_of_place? (hm : ∀ i, m.place? ≠ some ⟨.running, i⟩) :
    abortsStream p (m, a) = false := by
  unfold abortsStream
  split
  · rename_i i panic _ _ _ heq
    refine absurd ?_ (hm i)
    rw [(Prod.mk.inj heq).1]
    rfl
  · rfl

theorem takesHold?_of_place? (hm : m.place? = some q) (hq : q.shelf ≠ .running) :
    takesHold? (m, a) = none := by
  unfold takesHold?
  split <;> first
  | rfl
  | (rename_i heq
     rw [(Prod.mk.inj heq).1] at hm
     cases hm
     exact absurd rfl hq)

end Move

namespace Floor

variable {f : Floor α ε} {m : Move α ε} {a : Answer α ε} {n i c : Nat} {p : PortId} {q : Place}
  {h : Handle α ε} {st : Stream α ε} {b : Exchange.Broadcast} {thread : Option String}

theorem Sound.live_of_open (hs : f.Sound c) (hb : (f.exchange.inbox p).closed = false) :
    f.exchange.isGone = false := by
  refine Bool.eq_false_iff.2 fun hgone => ?_
  have hname := hs.consistent.open_iff p
  rw [hs.consistent.closed_names (hs.consistent.gone_closed hgone), hb] at hname
  cases hname

theorem holds_iff_letsGo? (h : f.Holds q) (hm : m.place? = some q) :
    (f.apply thread m).2.Holds q ↔ Move.letsGo? (m, (f.apply thread m).1) = none := by
  rw [apply_accounts thread m q, Move.takesHold?_of_place? hm h.1]
  cases hlets : Move.letsGo? (m, (f.apply thread m).1) with
  | none => simp [h]
  | some q' =>
    have hplace := Move.letsGo?_of_place? hlets
    rw [hm] at hplace
    cases hplace
    simp

/-- There is something in a place that takes from the broadcast port `p`. -/
inductive TakesFrom (f : Floor α ε) (p : PortId) : Place → Prop where
  | stream (n : Nat) (st : Stream α ε) (hst : f.session.streams[n]?.join = some st)
      (hp : st.port.id = p) : TakesFrom f p ⟨.streams, n⟩
  | handle (n : Nat) (b : Exchange.Broadcast) (hb : f.session.broadcasts[n]?.join = some b)
      (hp : b.id = p) : TakesFrom f p ⟨.broadcasts, n⟩
  | call (i : Nat) (task : String) (codec : Codec α ε) (port : Exchange.Broadcast)
      (hr : f.running[i]?.join = some (.stream task codec port)) (hp : port.id = p) :
      TakesFrom f p ⟨.running, i⟩

theorem Inboxless.takesFrom (hi : f.Inboxless) (hb : (f.exchange.inbox p).closed = false)
    (hq : f.handle? q = some h) (hport : h.port? = some p) : f.TakesFrom p q := by
  have htakes : h.takes = true := by
    refine Bool.of_not_eq_false fun ht => ?_
    rw [hi q h p hq hport ht] at hb
    cases hb
  obtain ⟨shelf, n⟩ := q
  cases shelf with
  | dispatcher =>
    obtain ⟨-, rfl⟩ := dispatcher_of_handle? hq
    cases hport
  | deferreds | singles =>
    rw [handle?_eq_map rfl, Option.map_eq_some_iff] at hq
    obtain ⟨d, -, rfl⟩ := hq
    cases htakes
  | streams =>
    rw [handle?_eq_map rfl, Option.map_eq_some_iff] at hq
    obtain ⟨st, hst, rfl⟩ := hq
    exact .stream n st hst (Option.some.inj hport)
  | broadcasts =>
    rw [handle?_eq_map rfl, Option.map_eq_some_iff] at hq
    obtain ⟨b, hb, rfl⟩ := hq
    exact .handle n b hb (Option.some.inj hport)
  | running =>
    rw [handle?_eq_map rfl, Option.map_eq_some_iff] at hq
    obtain ⟨r, hr, rfl⟩ := hq
    cases r with
    | stream task codec port => exact .call n task codec port hr (Option.some.inj hport)
    | async | sync | callback => cases htakes

/-- A move that uses nothing that takes from an open port, and does not tear it down, leaves it
open. -/
theorem open_aside (hs : f.Sound (m.opensPort.toNat + c)) (hi : f.Inboxless)
    (hp : p ≠ Exchange.reversePort) (hb : (f.exchange.inbox p).closed = false)
    (hlive : (f.apply thread m).2.exchange.isGone = false)
    (htear : Move.tearsDown p (m, (f.apply thread m).1) = false)
    (haside : ∀ q, m.place? = some q → ¬ f.TakesFrom p q) :
    ((f.apply thread m).2.exchange.inbox p).closed = false := by
  have hinbox := f.exchange.hasInbox_of_open p hb
  cases hpost : m.postTo? p with
  | some v =>
    rw [apply_post thread (Move.postTo?_eq_some hpost) (hs.live_of_open hb)]
    change ((f.exchange.post p v).2.inbox p).closed = false
    rw [inbox_post hs.consistent hinbox, Inbox.push, if_neg (by rw [hb]; exact Bool.false_ne_true)]
    exact hb
  | none =>
    obtain ⟨ops, he⟩ := hs.effect thread m
    have hspares := he.spares hp (Move.postTo?_eq_none hpost) htear fun q h hm hq hport =>
      haside q hm (hi.takesFrom hb hq hport)
    have hleft := And.intro (hs.claims_of_live (hs.live_of_open hb))
      ((hs.apply thread).claims_of_live hlive)
    rw [(he.samePort hs (hs.consistent.inbox_issued p hinbox) hspares hleft).inbox]
    exact hb

/-- What becomes of a stream that is used and of its port: either it goes on and the port is as open
as it was, or it lets go of the exchange and leaves nothing on the port. -/
inductive StreamUsed (f : Floor α ε) (n : Nat) (p : PortId) (f' : Floor α ε) : Prop where
  | goesOn (h : f'.Holds ⟨.streams, n⟩)
      (hb : (f'.exchange.inbox p).closed = (f.exchange.inbox p).closed)
  | ended (h : ¬ f'.Holds ⟨.streams, n⟩) (hb : f'.exchange.inbox p = ⟨[], true⟩)

/-- Whatever else is done while a port is closed from its managed end, nothing is left on it. -/
theorem Sound.emptied (hs : f.Sound c) (hq : f.handle? q = some h) (hport : h.port? = some b.id)
    {ops : List Op} {y : Exchange} (hr : Runs ops f.exchange y)
    (hops : ∀ o ∈ ops, o = .receive b.id ∨ o = .closeBroadcast b ∨ o = .release)
    (hmem : .closeBroadcast b ∈ ops) : y.inbox b.id = ⟨[], true⟩ := by
  obtain ⟨hissued, hreverse⟩ := hs.ports q h b.id hq hport
  have hnone : ops.countP Op.opens = 0 := by
    rw [List.countP_eq_zero]
    intro o ho
    rcases hops o ho with rfl | rfl | rfl <;> exact Bool.false_ne_true
  refine hr.emptied hs.consistent ⟨?_, ?_⟩ hissued hmem
  · have hroom := hs.room
    rw [hnone]
    omega
  · intro b' hb'
    rcases hops _ hb' with he | he | he
    · cases he
    · cases he
      exact hreverse
    · cases he

theorem streamUsed_pull {g : Inbox → Except Panic (Option Inbox.Received × Inbox)}
    (hs : f.Sound c) (hg : Inbox.Takes g) (hst : f.session.streams[n]?.join = some st)
    (hholds : st.holds = true) (answer : Stream.Pull α ε → Answer α ε) :
    f.StreamUsed n st.port.id
      (f.turn (f.session.pullStream n (Stream.pullBy thread g) answer)).2 := by
  obtain ⟨st', y, hends, hy⟩ := Stream.pullBy_endsIn thread hg hholds f.exchange
  have hleft : f.StreamUsed n st.port.id { f with
      session := (f.session.put y).setStream n (some st') } := by
    have hput : ((f.session.put y).setStream n (some st')).streams[n]?.join = some st' :=
      stream_set hst _
    rcases hy with ⟨rfl, hcore⟩ | ⟨rfl, hr⟩ | ⟨rfl, hr⟩
    · exact .goesOn ((holds_iff_of_stream hput).2 hholds)
        (congrArg Inbox.closed (Exchange.inbox_congr hcore _))
    · exact .goesOn ((holds_iff_of_stream hput).2 hholds) (hr.closed_receive _)
    · refine .ended (fun hh => ?_) (hs.emptied (handle?_stream hst) rfl hr (by simp) (by simp))
      cases (holds_iff_of_stream hput).1 hh
  rw [Session.pullStream, Session.withHandle, hst, session_exchange]
  rcases hends with ⟨r, hr⟩ | ⟨panic, hp⟩
  · dsimp only
    rw [hr]
    exact hleft
  · dsimp only
    rw [hp]
    exact hleft

theorem streamUsed_closing {x : Exchange} {st' : Option (Stream α ε)} (hs : f.Sound c)
    (hst : f.session.streams[n]?.join = some st) (hfree : ∀ s, st' = some s → s.holds = false)
    (hx : x.core = (st.port.close f.exchange).2.core) :
    f.StreamUsed n st.port.id { f with
      session := (f.session.put (st.letGo x)).setStream n st' } := by
  have hr : Runs ([.closeBroadcast st.port] ++ if st.holds then [.release] else []) f.exchange
      (st.letGo x) :=
    (Runs.single (.closeBroadcast st.port) hx).append (st.letGo_runs x)
  refine .ended (fun hh => ?_) (hs.emptied (handle?_stream hst) rfl hr ?_ (by simp))
  · obtain ⟨s, hput, hholds⟩ := holds_stream.1 hh
    rw [hfree s ((stream_set hst st').symm.trans hput)] at hholds
    cases hholds
  · intro o ho
    cases hholds : st.holds <;> rw [hholds] at ho <;> simp at ho
    · exact .inr (.inl ho)
    · rcases ho with rfl | rfl
      · exact .inr (.inl rfl)
      · exact .inr (.inr rfl)

theorem streamUsed_apply (hs : f.Sound c) (hst : f.session.streams[n]?.join = some st)
    (hholds : st.holds = true) (hm : m.place? = some ⟨.streams, n⟩) (thread : Option String) :
    f.StreamUsed n st.port.id (f.apply thread m).2 := by
  have hopen := Stream.open_of_holds hholds
  rcases Move.onStream_cases hm with hpull | rfl | rfl
  · unfold Move.pullsFrom at hpull
    split at hpull
    · cases of_decide_eq_true hpull
      exact streamUsed_pull hs Inbox.takes_receive hst hholds _
    · cases of_decide_eq_true hpull
      exact streamUsed_pull hs (Inbox.takes_receiveWithin _) hst hholds _
    · cases hpull
  · obtain ⟨x, hx, hclose⟩ := Stream.close_open hopen.1 f.exchange
    change f.StreamUsed n st.port.id (f.turn (f.session.withHandle f.session.streams n _)).2
    rw [Session.withHandle, hst, session_exchange]
    dsimp only
    rw [hclose]
    refine streamUsed_closing hs hst ?_ hx
    intro s hs'
    cases hs'
    rfl
  · change f.StreamUsed n st.port.id (f.turn (f.session.withHandle f.session.streams n _)).2
    rw [Session.withHandle, hst, session_exchange]
    exact streamUsed_closing hs hst (by simp) rfl

theorem withHandle_missing {η : Type} {s : Session α ε} {handles : List (Option η)}
    (h : handles[n]?.join = none) (g : η → Session.Turn α ε) :
    (s.withHandle handles n g).1 = .reply .noHandle := by
  rw [Session.withHandle, h]
  rfl

theorem apply_noStream (hm : m.place? = some ⟨.streams, n⟩)
    (hst : f.session.streams[n]?.join = none) : (f.apply thread m).1 = .reply .noHandle := by
  unfold Move.place? at hm
  split at hm <;> cases hm <;> exact withHandle_missing hst _

inductive HandleUsed (f : Floor α ε) (m : Move α ε) (n : Nat) (p : PortId) (t : Turn α ε) :
    Prop where
  | goesOn (h : Move.closesHandle? (m, t.1) = none)
      (hb : (t.2.exchange.inbox p).closed = (f.exchange.inbox p).closed)
  | closed (h : Move.closesHandle? (m, t.1) = some n) (hb : t.2.exchange.inbox p = ⟨[], true⟩)

theorem handleUsed_receive {g : Inbox → Except Panic (Option Inbox.Received × Inbox)}
    (hg : Inbox.Takes g) (hb : f.session.broadcasts[n]?.join = some b) (late : Answer α ε)
    (hm : ∀ a, Move.closesHandle? (m, a) = none) :
    f.HandleUsed m n b.id (f.turn (f.session.receiveBy n late g)) := by
  rw [Session.receiveBy, Session.withHandle, hb, session_exchange]
  dsimp only
  cases hi : g (f.exchange.inbox b.id) with
  | error panic => exact .goesOn (hm _) rfl
  | ok a =>
    have hr : Runs [.receive b.id] f.exchange (f.exchange.setInbox b.id a.2) := by
      refine .single _ ?_
      rw [hg _ _ hi]
      rfl
    exact .goesOn (hm _) (hr.closed_receive _)

theorem handleUsed_apply (hs : f.Sound c) (hb : f.session.broadcasts[n]?.join = some b)
    (hm : m.place? = some ⟨.broadcasts, n⟩) (thread : Option String) :
    f.HandleUsed m n b.id (f.apply thread m) := by
  have hempty : (b.close f.exchange).2.inbox b.id = ⟨[], true⟩ :=
    (Exchange.Broadcast.retired_close hs.consistent b
      (hs.ports _ _ b.id (handle?_broadcast hb) rfl).2).2
  unfold Move.place? at hm
  split at hm <;> cases hm
  · exact handleUsed_receive Inbox.takes_receive hb _ fun _ => rfl
  · change f.HandleUsed _ n b.id (f.turn (f.session.withHandle f.session.broadcasts n _))
    rw [Session.withHandle, hb, session_exchange]
    exact .goesOn rfl ((Runs.single (.receive b.id) rfl).closed_receive b.id)
  · exact handleUsed_receive (Inbox.takes_receiveWithin _) hb _ fun _ => rfl
  · change f.HandleUsed _ n b.id (f.turn (f.session.withHandle f.session.broadcasts n _))
    rw [Session.withHandle, hb, session_exchange]
    exact .closed rfl hempty
  · change f.HandleUsed _ n b.id (f.turn (f.session.withHandle f.session.broadcasts n _))
    rw [Session.withHandle, hb, session_exchange]
    exact .closed rfl hempty

theorem apply_noBroadcast (hm : m.place? = some ⟨.broadcasts, n⟩)
    (hb : f.session.broadcasts[n]?.join = none) : (f.apply thread m).1 = .reply .noHandle := by
  unfold Move.place? at hm
  split at hm <;> cases hm <;> exact withHandle_missing hb _

theorem apply_streams (f : Floor α ε) (thread : Option String) (m : Move α ε) :
    let t := f.apply thread m
    Move.streamPort? (m, t.1) = none ∧ Used Stream.Later f.session.streams t.2.session.streams ∨
      ∃ st : Stream α ε, Move.streamPort? (m, t.1) = some st.port.id ∧
        t.2.session.streams = f.session.streams ++ [some st] := by
  intro t
  by_cases hm : ∃ i ended, m = .finish i ended
  · obtain ⟨i, ended, rfl⟩ := hm
    cases hr : f.running[i]?.join with
    | none =>
      rw [show t = _ from finish_none thread ended hr]
      exact .inl ⟨rfl, .same⟩
    | some r =>
      cases r with
      | stream task codec port =>
        obtain ⟨⟨text, hanswer⟩, hstreams⟩ := finish_stream thread hr ended
        refine .inr ⟨_, ?_, hstreams⟩
        rw [show t.1 = _ from hanswer]
        rfl
      | async | sync | callback =>
        rw [show t = _ from finish_some thread ended hr]
        cases ended <;> exact .inl ⟨rfl, .same⟩
  · have hnone : Move.streamPort? (m, t.1) = none := by
      cases m with
      | finish i ended => exact absurd ⟨i, ended, rfl⟩ hm
      | _ => rfl
    exact .inl ⟨hnone, (uses_apply f thread fun i ended he => hm ⟨i, ended, he⟩).streams⟩

theorem apply_handles (f : Floor α ε) (thread : Option String) (m : Move α ε) :
    let t := f.apply thread m
    Move.handlePort? (m, t.1) = none ∧ Used Eq f.session.broadcasts t.2.session.broadcasts ∨
      ∃ b : Exchange.Broadcast, Move.handlePort? (m, t.1) = some b.id ∧
        t.2.session.broadcasts = f.session.broadcasts ++ [some b] := by
  intro t
  by_cases hm : ∃ task h, m = .step (.openBroadcast task) h
  · obtain ⟨task, h, rfl⟩ := hm
    change (Move.handlePort? (_, (f.turn (f.session.withDispatcher _)).1) = none ∧
      Used Eq _ (f.turn (f.session.withDispatcher _)).2.session.broadcasts) ∨
        ∃ b : Exchange.Broadcast,
          Move.handlePort? (_, (f.turn (f.session.withDispatcher _)).1) = some b.id ∧
          (f.turn (f.session.withDispatcher _)).2.session.broadcasts = _
    unfold Session.withDispatcher
    split
    · rw [session_exchange]
      dsimp only
      cases (f.exchange.openBroadcast task).1 with
      | error e => exact .inl ⟨rfl, .same⟩
      | ok b => exact .inr ⟨b, rfl, rfl⟩
    · exact .inl ⟨rfl, .same⟩
  · have hnone : Move.handlePort? (m, t.1) = none := by
      unfold Move.handlePort?
      split
      · rename_i heq
        exact absurd ⟨_, _, (Prod.mk.inj heq).1⟩ hm
      · rfl
    exact .inl ⟨hnone, (f.becomes_apply thread m).broadcasts fun task h he => hm ⟨task, h, he⟩⟩

theorem opensBroadcast_apply (hs : f.Sound (m.opensPort.toNat + c))
    (h : Move.opensBroadcast? (m, (f.apply thread m).1) = some p) :
    p = f.exchange.nextPort ∧ ((f.apply thread m).2.exchange.inbox p).closed = false := by
  have hgiven : Move.given? (m, (f.apply thread m).1) = some p := by
    unfold Move.opensBroadcast? at h
    split at h
    case h_3 => cases h
    all_goals
      rename_i heq
      rw [heq]
      exact h
  refine ⟨((hs.gives thread).next p hgiven).1, ?_⟩
  have hopen : ∀ {task : String} {b : Exchange.Broadcast} {y : Exchange},
      (f.exchange.openBroadcast task).1 = .ok b → y.core = (f.exchange.openBroadcast task).2.core →
      (y.inbox b.id).closed = false := by
    intro task b y ho hy
    rw [Exchange.inbox_openBroadcast hs.consistent ho hy]
    rfl
  cases m with
  | beginStream task codec =>
    change Move.opensBroadcast? (_, (f.begin _ _ _).1) = _ at h
    change ((f.begin _ _ _).2.exchange.inbox p).closed = false
    unfold Floor.begin at h ⊢
    split at h
    · rename_i hd
      rw [if_pos hd]
      cases ho : (f.exchange.openBroadcast task).1 with
      | error e =>
        rw [Exchange.beginStream_error task ho] at h
        cases h
      | ok b =>
        obtain ⟨y, hcore, hbegin⟩ := Exchange.beginStream_ok task ho
        rw [hbegin] at h ⊢
        cases h
        change (y.inbox b.id).closed = false
        exact hopen ho hcore
    · cases h
  | step st hel =>
    cases st with
    | openBroadcast task =>
      change Move.opensBroadcast? (_, (f.turn (f.session.withDispatcher _)).1) = _ at h
      change ((f.turn (f.session.withDispatcher _)).2.exchange.inbox p).closed = false
      unfold Session.withDispatcher at h ⊢
      split at h
      · rename_i hd
        rw [if_pos hd]
        rw [session_exchange] at h ⊢
        dsimp only at h ⊢
        cases ho : (f.exchange.openBroadcast task).1 with
        | error e =>
          rw [ho] at h
          cases h
        | ok b =>
          rw [ho] at h
          cases h
          exact hopen ho rfl
      · cases h
    | _ => cases h
  | _ => cases h

theorem opensBroadcast_of_given {e : Move α ε × Answer α ε} (h : Move.given? e = some p) :
    Move.opensBroadcast? e = some p ∨ Move.opens? e = some p := by
  unfold Move.given? at h
  split at h
  · exact .inr h
  · exact .inl h
  · exact .inr h
  · exact .inl h
  · cases h

/-- A broadcast port that is open was so before, or it was opened. -/
theorem open_apply (hs : f.Sound (m.opensPort.toNat + c))
    (hb : ((f.apply thread m).2.exchange.inbox p).closed = false) :
    (f.exchange.inbox p).closed = false ∨
      Move.opensBroadcast? (m, (f.apply thread m).1) = some p := by
  rcases (hs.gives thread).inbox p hb with hold | hgiven
  · exact .inl hold
  · rcases opensBroadcast_of_given hgiven with hnew | hsingle
    · exact .inr hnew
    · -- a port for one delivery has no inbox
      rw [opens?_apply, Option.map_eq_some_iff] at hsingle
      obtain ⟨⟨p', k⟩, ho, rfl⟩ := hsingle
      have hnone := (hs.apply thread).consistent.pending_hasInbox p' (ticket_opened thread ho).2
      rw [Exchange.hasInbox_of_open _ p' hb] at hnone
      cases hnone

end Floor

end CallExchange
