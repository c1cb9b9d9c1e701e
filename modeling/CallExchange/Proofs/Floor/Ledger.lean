import CallExchange.Proofs.Floor.Gives
import CallExchange.Proofs.Floor.Holders
import CallExchange.Proofs.Floor.Threads
import CallExchange.Proofs.Resolution

set_option autoImplicit false

/-!
# Ports that wait, by the history

Which ports for one delivery were opened and not retired yet, once as the history of a floor has it
and once as the table of the exchange has it. A move changes both in the same way: whatever retires
a port does so once, and nothing else does.
-/

namespace CallExchange

variable {α ε : Type}

namespace Move

/-- The port for one delivery that a move opened. -/
def opens? : Move α ε × Answer α ε → Option PortId
  | (.beginAsync _ _, .reply (.port p _)) => some p
  | (.step .openSingle _, .single _ p _) => some p
  | _ => none

def aborts (p : PortId) : Move α ε × Answer α ε → Bool
  | (.finish _ (.error _), .deferred _ d _ _) => d.port = p
  | _ => false

def resultPort? : Move α ε × Answer α ε → Option (Option PortId)
  | (.finish _ _, .deferred _ d _ _) => some (Handle.deferred d).port?
  | _ => none

end Move

/-- What the history says of ports for one delivery. -/
structure Ledger where
  /-- Those that were opened and are not retired. -/
  waiting : List PortId
  /-- On which each result waits that was handed out, in order. -/
  results : List (Option PortId)
  holders : List Place

namespace Ledger

def new : Ledger := ⟨[], [], [⟨.dispatcher, 0⟩]⟩

/-- Whether the result that waits on `p` was dropped. A result that is settled waits no more, and
its port is retired already. -/
def drops (l : Ledger) (p : PortId) : Move α ε × Answer α ε → Bool
  | (.step (.dropDeferred n) _, .reply .nothing) => l.results[n]?.join = some p
  | _ => false

/-- Whether the last that held the exchange let go of it, which shuts it down. -/
def isLeft (l : Ledger) (e : Move α ε × Answer α ε) : Bool :=
  (Floor.holdersAfter l.holders e).isEmpty

def retires (l : Ledger) (p : PortId) (e : Move α ε × Answer α ε) : Bool :=
  (Move.completes? p e).isSome || Move.tearsDown p e || Move.aborts p e || l.drops p e || l.isLeft e

def after (l : Ledger) (e : Move α ε × Answer α ε) : Ledger where
  waiting := l.waiting.filter (fun p => !l.retires p e) ++ (Move.opens? e).toList
  results := l.results ++ (Move.resultPort? e).toList
  holders := Floor.holdersAfter l.holders e

end Ledger

def ledger (h : List (Move α ε × Answer α ε)) : Ledger := h.foldl Ledger.after .new

namespace Floor

variable {f : Floor α ε} {m : Move α ε} {n c : Nat} {p : PortId} {k : Ticket} {q : Place}
  {h : Handle α ε} {d : Deferred α ε} {l : Ledger} {thread : Option String}

/-- A port that comes with a ticket has been given this ticket, and a port that values are taken
from is a broadcast port. -/
structure Fastened (f : Floor α ε) : Prop where
  tied : ∀ q h p k, f.handle? q = some h → h.port? = some p → h.ticket? = some k →
    Exchange.Tied p k f.exchange
  inbox : ∀ q h p, f.handle? q = some h → h.port? = some p → h.takes = true →
    f.exchange.hasInbox p = true

theorem Fastened.apply (hf : f.Fastened) (hs : f.Sound (m.opensPort.toNat + c))
    (thread : Option String) : (f.apply thread m).2.Fastened := by
  obtain ⟨ops, he⟩ := hs.effect thread m
  have hgrows := grows_apply hs thread
  refine ⟨?_, ?_⟩
  · intro q h p k hq hp hk
    rcases he.born q h hq with hold | hfresh | ⟨q₀, h₀, -, hq₀, hfrom⟩
    · exact (hf.tied q h p k hold hp hk).grows hgrows
    · obtain ⟨p', ho, hport⟩ := hs.opened_of_fresh hfresh hk
      rw [hport p hp]
      exact tied_opened thread hs ho
    · exact (hf.tied q₀ h₀ p k hq₀ (hfrom.port p hp) (hfrom.ticket k hk)).grows hgrows
  · intro q h p hq hp ht
    rcases he.born q h hq with hold | hfresh | ⟨q₀, h₀, -, hq₀, hfrom⟩
    · exact hgrows.hasInbox p (hf.inbox q h p hold hp ht)
    · exact hfresh.inbox p hp ht
    · exact hgrows.hasInbox p (hf.inbox q₀ h₀ p hq₀ (hfrom.port p hp) (hfrom.takes p hp ht))

theorem fastened_start (x : Exchange) : (start x : Floor α ε).Fastened := by
  refine ⟨?_, ?_⟩ <;> intro q h p
  · intro k hq hp
    obtain ⟨-, rfl⟩ := handle?_start hq
    cases hp
  · intro hq hp
    obtain ⟨-, rfl⟩ := handle?_start hq
    cases hp

/-- On the ports of results and of calls for one delivery nothing is ever queued. -/
def Inboxless (f : Floor α ε) : Prop :=
  ∀ q h p, f.handle? q = some h → h.port? = some p → h.takes = false →
    f.exchange.inbox p = ⟨[], true⟩

theorem Inboxless.apply (hf : f.Inboxless) (hs : f.Sound (m.opensPort.toNat + c))
    (thread : Option String) : (f.apply thread m).2.Inboxless := by
  intro q h p hq hp ht
  obtain ⟨ops, he⟩ := hs.effect thread m
  have hold : ∀ q₀ h₀, f.handle? q₀ = some h₀ → h₀.port? = some p → h₀.takes = false →
      (f.apply thread m).2.exchange.inbox p = ⟨[], true⟩ := by
    intro q₀ h₀ hq₀ hp₀ ht₀
    exact he.runs.stays_empty hs.consistent (he.fit hs) (hs.ports q₀ h₀ p hq₀ hp₀).1
      (hf q₀ h₀ p hq₀ hp₀ ht₀)
  obtain ⟨k, hk⟩ := Handle.exists_ticket hp ht
  rcases he.born q h hq with hbefore | hfresh | ⟨q₀, h₀, -, hq₀, hfrom⟩
  · exact hold q h hbefore hp ht
  · obtain ⟨p', ho, hport⟩ := hs.opened_of_fresh hfresh hk
    have hticket : ((f.apply thread m).2.exchange.ticket? p).isSome = true := by
      rw [hport p hp]
      exact (ticket_opened thread ho).2
    exact Exchange.inbox_of_not_hasInbox _ p
      ((hs.apply thread).consistent.pending_hasInbox p hticket)
  · exact hold q₀ h₀ hq₀ (hfrom.port p hp) (Handle.takes_of_ticket (hfrom.ticket k hk))

theorem inboxless_start (x : Exchange) : (start x : Floor α ε).Inboxless := by
  intro q h p hq hp
  obtain ⟨-, rfl⟩ := handle?_start hq
  cases hp

inductive On (f : Floor α ε) (p : PortId) : Place → Prop where
  | result (n : Nat) (d : Deferred α ε) (k : Ticket) (hd : f.session.deferreds[n]?.join = some d)
      (hstate : d.state = .waiting k) (hp : d.port = p) : On f p ⟨.deferreds, n⟩
  | call (i : Nat) (task : String) (codec : Codec α ε) (k : Ticket)
      (hr : f.running[i]?.join = some (.async task codec p k)) : On f p ⟨.running, i⟩

theorem Fastened.on (hf : f.Fastened) (hs : f.Sound c) (hp : (f.exchange.ticket? p).isSome = true)
    (hq : f.handle? q = some h) (hport : h.port? = some p) : f.On p q := by
  have htakes : h.takes = false := by
    cases ht : h.takes with
    | false => rfl
    | true =>
      have hno := hs.consistent.pending_hasInbox p hp
      rw [hf.inbox q h p hq hport ht] at hno
      cases hno
  obtain ⟨shelf, i⟩ := q
  cases shelf with
  | dispatcher =>
    obtain ⟨-, rfl⟩ := dispatcher_of_handle? hq
    cases hport
  | streams | broadcasts =>
    rw [handle?_eq_map rfl, Option.map_eq_some_iff] at hq
    obtain ⟨a, -, rfl⟩ := hq
    cases htakes
  | singles =>
    rw [handle?_eq_map rfl, Option.map_eq_some_iff] at hq
    obtain ⟨k, -, rfl⟩ := hq
    cases hport
  | deferreds =>
    rw [handle?_eq_map rfl, Option.map_eq_some_iff] at hq
    obtain ⟨d, hd, rfl⟩ := hq
    cases hstate : d.state with
    | waiting k =>
      rw [Handle.port?_waiting hstate] at hport
      exact .result i d k hd hstate (Option.some.inj hport)
    | failed failure =>
      rw [Handle.port?, Deferred.holds, hstate] at hport
      cases hport
  | running =>
    rw [handle?_eq_map rfl, Option.map_eq_some_iff] at hq
    obtain ⟨r, hr, rfl⟩ := hq
    cases r with
    | async task codec p' k =>
      cases hport
      exact .call i task codec k hr
    | stream => cases htakes
    | sync | callback => cases hport

theorem Sound.live_of_waiting (hs : f.Sound c) (hp : (f.exchange.ticket? p).isSome = true) :
    f.exchange.isGone = false := by
  cases hgone : f.exchange.isGone with
  | false => rfl
  | true =>
    rw [hs.consistent.closed_tickets (hs.consistent.gone_closed hgone)] at hp
    cases hp

theorem Sound.claims_of_live (hs : f.Sound c) (hlive : f.exchange.isGone = false) :
    1 ≤ f.claims := by
  rw [Exchange.isGone, decide_eq_false_iff_not, hs.owned] at hlive
  omega

theorem Sound.ne_reverse_of_waiting (hs : f.Sound c) (hp : (f.exchange.ticket? p).isSome = true) :
    p ≠ Exchange.reversePort := by
  rintro rfl
  rw [hs.consistent.reverse_not_pending] at hp
  cases hp

/-- A move that uses no handle on the port and neither posts to it nor closes it leaves it alone. -/
theorem ticket_aside (hs : f.Sound (m.opensPort.toNat + c))
    (hp : (f.exchange.ticket? p).isSome = true)
    (hlive : (f.apply thread m).2.exchange.isGone = false) (hpost : m.postTo? p = none)
    (htear : Move.tearsDown p (m, (f.apply thread m).1) = false)
    (haside : ∀ q h, m.place? = some q → f.handle? q = some h → h.port? ≠ some p) :
    (f.apply thread m).2.exchange.ticket? p = f.exchange.ticket? p := by
  obtain ⟨ops, he⟩ := hs.effect thread m
  have hspares := he.spares (hs.ne_reverse_of_waiting hp) (Move.postTo?_eq_none hpost) htear haside
  have hleft := And.intro (hs.claims_of_live (hs.live_of_waiting hp))
    ((hs.apply thread).claims_of_live hlive)
  exact (he.samePort hs (hs.consistent.pending_issued p hp) hspares hleft).ticket

section Results

variable {g : OneShot Value → Except Panic (Option (OneShot.Verdict Value) × OneShot Value)}

theorem ticket_readDeferred (hg : Deferred.ReadsSlot g) (late : Answer α ε)
    (hd : f.session.deferreds[n]?.join = some d) (hstate : d.state = .waiting k) (p : PortId) :
    (f.turn (f.session.readDeferred n late (Deferred.readBy thread g))).2.exchange.ticket? p =
      f.exchange.ticket? p := by
  obtain ⟨y, hends, hcore⟩ := Deferred.readBy_waiting thread hg hstate f.exchange
  have hy : y.ticket? p = f.exchange.ticket? p := by
    rcases hcore with hcore | ⟨r, hcore⟩ <;> rw [Exchange.ticket?_congr hcore]
    rfl
  rw [Session.readDeferred, Session.withHandle, hd, session_exchange]
  rcases hends with ⟨b, hb⟩ | ⟨e, he⟩
  · dsimp only
    rw [hb]
    exact hy
  · dsimp only
    rw [he]
    exact hy

theorem ticket_dropDeferred (hs : f.Sound c) (hp : (f.exchange.ticket? d.port).isSome = true)
    (hstate : d.state = .waiting k) (hopen : d.isReady f.exchange = false) :
    (d.drop f.exchange).ticket? d.port = none := by
  have hretired := Exchange.retired_closePort hs.consistent (hs.ne_reverse_of_waiting hp)
  have hcons := hs.consistent.retired (hs.ne_reverse_of_waiting hp) hretired
  obtain ⟨y, hcore, hdrop⟩ := Deferred.drop_open hstate hopen
  have hnone : y.ticket? d.port = none := by
    rw [Exchange.ticket?_congr hcore, hretired.ticket, if_pos rfl]
  have hissued : y.Issued d.port := by
    have hold := hs.consistent.pending_issued d.port hp
    rw [Exchange.Issued, Exchange.nextPort_congr hcore, hretired.nextPort]
    exact hold
  rw [hdrop]
  cases hj : y.release.ticket? d.port with
  | none => rfl
  | some j =>
    rcases ((Exchange.Op.release).grows (hcons.of_core hcore) trivial).ticket d.port j hj with
      hold | ⟨hnew, -⟩
    · rw [hnone] at hold
      cases hold
    · exact absurd hissued hnew

end Results

/-- Only the entry of a call for one delivery leaves a result, and an abort retires its port. -/
theorem aborts_finish (ended : Except Panic Buffer)
    (h : Move.aborts p (.finish n ended, (f.apply thread (.finish n ended)).1) = true) :
    ∃ task codec k, f.running[n]?.join = some (.async task codec p k) := by
  cases hr : f.running[n]?.join with
  | none =>
    rw [finish_none thread ended hr] at h
    cases ended <;> cases h
  | some r =>
    rw [finish_some thread ended hr] at h
    cases r with
    | async task codec p' k =>
      cases ended with
      | ok b => cases h
      | error e =>
        have hp : p' = p := of_decide_eq_true h
        exact ⟨task, codec, k, by rw [hp]⟩
    | stream | sync | callback => cases ended <;> cases h

theorem ticket_finish {task : String} {codec : Codec α ε} (hs : f.Sound c)
    (hp : (f.exchange.ticket? p).isSome = true)
    (hr : f.running[n]?.join = some (.async task codec p k)) (ended : Except Panic Buffer) :
    let t := f.apply thread (.finish n ended)
    (t.2.exchange.ticket? p).isSome = !Move.aborts p (.finish n ended, t.1) := by
  intro t
  have hturn : t = _ := finish_some thread ended hr
  cases ended with
  | ok b =>
    rw [hturn]
    exact hp
  | error e =>
    have haborts : Move.aborts p (.finish n (.error e), t.1) = true := by
      rw [hturn]
      exact decide_eq_true rfl
    have hticket : t.2.exchange.ticket? p = (f.exchange.closePort p).2.ticket? p := by
      rw [hturn]
      rfl
    have hretired := Exchange.retired_closePort hs.consistent (hs.ne_reverse_of_waiting hp)
    rw [haborts, hticket, hretired.ticket, if_pos rfl]
    rfl

theorem apply_results (f : Floor α ε) (thread : Option String) (m : Move α ε) :
    let t := f.apply thread m
    (Move.resultPort? (m, t.1) = none ∧
        Used Deferred.Later f.session.deferreds t.2.session.deferreds) ∨
      ∃ d : Deferred α ε, Move.resultPort? (m, t.1) = some (Handle.deferred d).port? ∧
        t.2.session.deferreds = f.session.deferreds ++ [some d] := by
  intro t
  by_cases hm : ∃ i ended, m = .finish i ended
  · obtain ⟨i, ended, rfl⟩ := hm
    cases hr : f.running[i]?.join with
    | none =>
      rw [show t = _ from finish_none thread ended hr]
      exact .inl ⟨rfl, .same⟩
    | some r =>
      cases r with
      | async task codec p k =>
        obtain ⟨⟨ready, text, hanswer⟩, hdeferreds⟩ := finish_normal thread hr ended
        refine .inr ⟨_, ?_, hdeferreds⟩
        rw [show t.1 = _ from hanswer]
        rfl
      | stream | sync | callback =>
        rw [show t = _ from finish_some thread ended hr]
        cases ended <;> exact .inl ⟨rfl, .same⟩
  · have hnone : Move.resultPort? (m, t.1) = none := by
      cases m with
      | finish i ended => exact absurd ⟨i, ended, rfl⟩ hm
      | _ => rfl
    exact .inl ⟨hnone, (uses_apply f thread fun i ended he => hm ⟨i, ended, he⟩).deferreds⟩

theorem port?_later {d d' : Deferred α ε} (h : d.Later d') :
    (Handle.deferred d').port? = (Handle.deferred d).port? := by
  rcases h with rfl | ⟨⟨failure, hd⟩, rfl⟩
  · rfl
  · rw [Handle.port?, Handle.port?, Deferred.holds, Deferred.holds, hd]

theorem opens?_apply (f : Floor α ε) (thread : Option String) (m : Move α ε) :
    Move.opens? (m, (f.apply thread m).1) = (f.opened? m).map Prod.fst := by
  cases m with
  | beginAsync task codec =>
    change Move.opens? (_, (f.begin _ _ _).1) = Option.map _ (if f.session.dispatcher then _ else _)
    unfold Floor.begin
    split
    · cases ho : f.exchange.openSingle.1 with
      | error e =>
        rw [Exchange.beginAsync_error task ho]
        rfl
      | ok a =>
        obtain ⟨y, -, hbegin⟩ := Exchange.beginAsync_ok task ho
        rw [hbegin]
        rfl
    · rfl
  | step st h =>
    cases st with
    | openSingle =>
      change Move.opens? (_, (f.turn (f.session.withDispatcher _)).1) =
        Option.map _ (if f.session.dispatcher then _ else _)
      unfold Session.withDispatcher
      split
      · rw [session_exchange]
        dsimp only
        cases f.exchange.openSingle.1 <;> rfl
      · rfl
    | _ => rfl
  | _ => rfl

end Floor

namespace Ledger

open Floor

variable {f : Floor α ε} {m : Move α ε} {ms : List (Move α ε)} {n c : Nat} {p : PortId}
  {q : Place} {l : Ledger} {thread : Option String}

/-- The ledger says of a floor what is the case. -/
structure Tracks (l : Ledger) (f : Floor α ε) : Prop where
  fastened : f.Fastened
  waiting : ∀ p, p ∈ l.waiting ↔ (f.exchange.ticket? p).isSome = true
  nodup : l.waiting.Nodup
  length : l.results.length = f.session.deferreds.length
  results : ∀ (n : Nat) (d : Deferred α ε), f.session.deferreds[n]?.join = some d →
    l.results[n]?.join = (Handle.deferred d).port?
  holders : ∀ q, q ∈ l.holders ↔ f.Holds q

theorem Tracks.isLeft_eq (ht : l.Tracks f) (hs : f.Sound (m.opensPort.toNat + c))
    (thread : Option String) :
    l.isLeft (m, (f.apply thread m).1) = (f.apply thread m).2.exchange.isGone :=
  isEmpty_holdersAfter ht.holders (hs.apply thread)

theorem Tracks.on_of_drops (ht : l.Tracks f) (hs : f.Sound c)
    (hp : (f.exchange.ticket? p).isSome = true)
    (hd : l.drops p (m, (f.apply thread m).1) = true) : ∃ q, m.place? = some q ∧ f.On p q := by
  unfold drops at hd
  split at hd
  · rename_i n hel heq
    obtain ⟨rfl, hanswer⟩ := Prod.mk.inj heq
    cases hn : f.session.deferreds[n]?.join with
    | none =>
      change (f.session.withHandle f.session.deferreds n _).1 = _ at hanswer
      rw [Session.withHandle, hn] at hanswer
      cases hanswer
    | some d =>
      rw [ht.results n d hn] at hd
      exact ⟨_, rfl, ht.fastened.on hs hp (handle?_deferred hn) (of_decide_eq_true hd)⟩
  · cases hd

theorem on_of_aborts (h : Move.aborts p (m, (f.apply thread m).1) = true) :
    ∃ q, m.place? = some q ∧ f.On p q := by
  cases m with
  | finish i ended =>
    obtain ⟨task, codec, k, hr⟩ := aborts_finish ended h
    exact ⟨_, rfl, .call i task codec k hr⟩
  | _ => cases h

theorem Tracks.ticket_result {d : Deferred α ε} {k : Ticket} (ht : l.Tracks f) (hs : f.Sound c)
    (hp : (f.exchange.ticket? d.port).isSome = true) (hm : m.place? = some ⟨.deferreds, n⟩)
    (hd : f.session.deferreds[n]?.join = some d) (hstate : d.state = .waiting k) :
    let t := f.apply thread m
    (t.2.exchange.ticket? d.port).isSome = !l.drops d.port (m, t.1) := by
  intro t
  have htied := ht.fastened.tied _ _ d.port k (handle?_deferred hd) (Handle.port?_waiting hstate)
    (Handle.ticket?_waiting hstate)
  have hopen : (f.exchange.slot k).isSettled = false := by
    have hiff := htied.pending_iff hs.consistent
    rw [hp, eq_comm, Bool.not_eq_true'] at hiff
    exact hiff
  have hread : ∀ {g : OneShot Value → Except Panic (Option (OneShot.Verdict Value) × OneShot Value)},
      Deferred.ReadsSlot g → ∀ late, ((f.turn (f.session.readDeferred n late
        (Deferred.readBy thread g))).2.exchange.ticket? d.port).isSome = true := by
    intro g hg late
    rw [ticket_readDeferred hg late hd hstate]
    exact hp
  unfold Move.place? at hm
  split at hm <;> cases hm
  · exact hread Deferred.readsSlot_take _
  · exact hread (Deferred.readsSlot_takeWithin _) _
  · exact hread (Deferred.readsSlot_poll _) _
  · change ((f.turn (f.session.waitDeferred thread n)).2.exchange.ticket? d.port).isSome = true
    rw [waitDeferred_open thread hd hstate hopen]
    exact hp
  · rename_i hel
    have hturn : t = f.turn
        (((f.session.put (d.drop f.session.exchange)).setDeferred n none).replied .nothing) := by
      change f.turn (f.session.withHandle f.session.deferreds n _) = _
      rw [Session.withHandle, hd]
    have hready : d.isReady f.exchange = false := by
      rw [Deferred.isReady, hstate]
      exact hopen
    have hdrops : l.drops d.port (.step (.dropDeferred n) hel, t.1) = true := by
      rw [hturn]
      exact decide_eq_true ((ht.results n d hd).trans (Handle.port?_waiting hstate))
    have hnone : t.2.exchange.ticket? d.port = none := by
      rw [hturn]
      exact ticket_dropDeferred hs hp hstate hready
    rw [hdrops, hnone]
    rfl

/-- A use of the result or of the call that waits on a port: its drop and its abort retire the port,
and nothing else does. -/
theorem Tracks.ticket_on (ht : l.Tracks f) (hs : f.Sound c)
    (hp : (f.exchange.ticket? p).isSome = true) (hm : m.place? = some q) (hon : f.On p q) :
    let t := f.apply thread m
    (t.2.exchange.ticket? p).isSome = !(Move.aborts p (m, t.1) || l.drops p (m, t.1)) := by
  intro t
  cases hon with
  | result n d k hd hstate hport =>
    subst hport
    have haborts : Move.aborts d.port (m, t.1) = false := by
      unfold Move.place? at hm
      split at hm <;> cases hm <;> rfl
    rw [haborts, Bool.false_or]
    exact ht.ticket_result hs hp hm hd hstate
  | call i task codec k hr =>
    obtain ⟨ended, rfl⟩ := Move.uses_running hm
    have hdrops : l.drops p (.finish i ended, t.1) = false := rfl
    rw [hdrops, Bool.or_false]
    exact ticket_finish hs hp hr ended

theorem completes_of_post (thread : Option String) {v : Value} (hs : f.Sound c)
    (hp : (f.exchange.ticket? p).isSome = true) (hpost : m.postTo? p = some v) :
    Move.completes? p (m, (f.apply thread m).1) = some v := by
  have hcompleted := (hs.consistent.routes p v).completed_iff.2 (Exchange.mem_pendingPorts.2 hp)
  rw [apply_post thread (Move.postTo?_eq_some hpost) (hs.live_of_waiting hp), hcompleted]
  exact hpost

/-- A move retires a port that waits if and only if the ledger has it so. -/
theorem Tracks.retires_eq (ht : l.Tracks f) (hs : f.Sound (m.opensPort.toNat + c))
    (hp : (f.exchange.ticket? p).isSome = true) (thread : Option String) :
    l.retires p (m, (f.apply thread m).1) =
      !((f.apply thread m).2.exchange.ticket? p).isSome := by
  have hcons := (hs.apply thread).consistent
  rw [retires, ht.isLeft_eq hs thread]
  cases hgone : (f.apply thread m).2.exchange.isGone with
  | true =>
    rw [hcons.closed_tickets (hcons.gone_closed hgone), Bool.or_true]
    rfl
  | false =>
    rw [Bool.or_false]
    cases hpost : m.postTo? p with
    | some v =>
      have hcompletes := completes_of_post thread hs hp hpost
      rw [(apply_completes hs.consistent hcompletes).2, hcompletes]
      rfl
    | none =>
      have hcompletes := Move.completes?_of_postTo? hpost (f.apply thread m).1
      rw [hcompletes]
      cases htear : Move.tearsDown p (m, (f.apply thread m).1) with
      | true =>
        have hsettles : Move.settles? p (m, (f.apply thread m).1) = some none := by
          rw [Move.settles?, hcompletes, htear]
          rfl
        rw [retired_of_settles hs.consistent (hs.ne_reverse_of_waiting hp) hsettles]
        rfl
      | false =>
        by_cases hon : ∃ q, m.place? = some q ∧ f.On p q
        · obtain ⟨q, hm, hon⟩ := hon
          rw [ht.ticket_on hs hp hm hon, Bool.not_not]
          rfl
        · have haborts : Move.aborts p (m, (f.apply thread m).1) = false :=
            Bool.eq_false_iff.2 fun h => hon (on_of_aborts h)
          have hdrops : l.drops p (m, (f.apply thread m).1) = false :=
            Bool.eq_false_iff.2 fun h => hon (ht.on_of_drops hs hp h)
          have haside := ticket_aside hs hp hgone hpost htear fun q h hm hq hport =>
            hon ⟨q, hm, ht.fastened.on hs hp hq hport⟩
          rw [haborts, hdrops, haside, hp]
          rfl

theorem mem_waiting_after (l : Ledger) (e : Move α ε × Answer α ε) (p : PortId) :
    p ∈ (l.after e).waiting ↔
      (p ∈ l.waiting ∧ l.retires p e = false) ∨ Move.opens? e = some p := by
  simp [after]

theorem Tracks.waiting_after (ht : l.Tracks f) (hs : f.Sound (m.opensPort.toNat + c))
    (thread : Option String) (p : PortId) :
    p ∈ (l.after (m, (f.apply thread m).1)).waiting ↔
      ((f.apply thread m).2.exchange.ticket? p).isSome = true := by
  rw [mem_waiting_after, opens?_apply, Option.map_eq_some_iff]
  constructor
  · rintro (⟨hp, hkept⟩ | ⟨⟨p', k⟩, ho, rfl⟩)
    · rw [ht.retires_eq hs ((ht.waiting p).1 hp) thread, Bool.not_eq_false'] at hkept
      exact hkept
    · exact (ticket_opened thread ho).2
  · intro hp
    obtain ⟨k, hk⟩ := Option.isSome_iff_exists.1 hp
    rcases (hs.gives thread).ticket p k hk with hold | hnew
    · have hwaits : (f.exchange.ticket? p).isSome = true := by
        rw [hold]
        rfl
      refine .inl ⟨(ht.waiting p).2 hwaits, ?_⟩
      rw [ht.retires_eq hs hwaits thread, hp]
      rfl
    · exact .inr ⟨(p, k), hnew, rfl⟩

theorem Tracks.nodup_after (ht : l.Tracks f) (hs : f.Sound (m.opensPort.toNat + c))
    (thread : Option String) : (l.after (m, (f.apply thread m).1)).waiting.Nodup := by
  refine List.nodup_append.2 ⟨ht.nodup.filter _, ?_, ?_⟩
  · cases Move.opens? (m, (f.apply thread m).1) with
    | none => exact .nil
    | some p => exact List.nodup_singleton p
  · rintro p hold _ hnew rfl
    rw [Option.mem_toList, opens?_apply, Option.map_eq_some_iff] at hnew
    obtain ⟨⟨p', k⟩, ho, rfl⟩ := hnew
    -- what waits had its number before, and what is opened has the next one
    have hissued := hs.consistent.pending_issued _ ((ht.waiting _).1 (List.mem_of_mem_filter hold))
    rw [(ticket_opened thread ho).1] at hissued
    exact f.exchange.not_issued_next hissued

theorem Tracks.results_after (ht : l.Tracks f) (thread : Option String) (m : Move α ε) :
    let t := f.apply thread m
    let l' := l.after (m, t.1)
    l'.results.length = t.2.session.deferreds.length ∧
      ∀ (n : Nat) (d : Deferred α ε), t.2.session.deferreds[n]?.join = some d →
        l'.results[n]?.join = (Handle.deferred d).port? := by
  intro t l'
  change (l.results ++ _).length = _ ∧ ∀ n d, _ → (l.results ++ _)[n]?.join = _
  rcases apply_results f thread m with ⟨hnone, hused⟩ | ⟨d', hsome, hdeferreds⟩
  · rw [hnone, Option.toList_none, List.append_nil]
    refine ⟨ht.length.trans hused.length_eq.symm, fun n d hd => ?_⟩
    obtain ⟨d₀, hd₀, hlater⟩ := hused.origin (fun _ => .inl rfl) hd
    rw [port?_later hlater]
    exact ht.results n d₀ hd₀
  · rw [hsome, Option.toList_some, show t.2.session.deferreds = _ from hdeferreds]
    refine ⟨by rw [List.length_append, List.length_append, ht.length]; rfl, fun n d hd => ?_⟩
    rcases Nat.lt_trichotomy n f.session.deferreds.length with hlt | rfl | hgt
    · rw [List.getElem?_append_left hlt] at hd
      rw [List.getElem?_append_left (ht.length ▸ hlt)]
      exact ht.results n d hd
    · rw [List.getElem?_concat_length] at hd
      cases hd
      rw [← ht.length, List.getElem?_concat_length]
      rfl
    · rw [List.getElem?_eq_none (by rw [List.length_append]; exact hgt)] at hd
      cases hd

theorem Tracks.apply (ht : l.Tracks f) (hs : f.Sound (m.opensPort.toNat + c))
    (thread : Option String) :
    (l.after (m, (f.apply thread m).1)).Tracks (f.apply thread m).2 where
  fastened := ht.fastened.apply hs thread
  waiting := ht.waiting_after hs thread
  nodup := ht.nodup_after hs thread
  length := (ht.results_after thread m).1
  results := (ht.results_after thread m).2
  holders := mem_holdersAfter_apply ht.holders thread m

theorem Tracks.run (ht : l.Tracks f) (hs : f.Sound (ms.countP Move.opensPort + c))
    (thread : Option String) :
    ((history thread ms f).foldl Ledger.after l).Tracks (run thread ms f) := by
  induction ms generalizing f l with
  | nil => exact ht
  | cons m ms ih =>
    rw [countP_opens_cons] at hs
    exact ih (ht.apply hs thread) (hs.apply thread)

theorem tracks_start {s : Settings} {x : Exchange} (hx : Exchange.create s = .ok x) :
    new.Tracks (start x : Floor α ε) where
  fastened := fastened_start x
  waiting p := by
    obtain ⟨-, rfl⟩ := Exchange.create_eq hx
    exact ⟨fun h => (List.not_mem_nil h).elim, fun h => Bool.noConfusion h⟩
  nodup := .nil
  length := rfl
  results n d hd := by cases hd
  holders := holds_start x

end Ledger

end CallExchange
