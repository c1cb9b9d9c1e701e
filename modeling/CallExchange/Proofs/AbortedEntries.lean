import CallExchange.Proofs.Attribution
import CallExchange.Proofs.Floor.Ledger
import CallExchange.Proofs.StaleHandles
import CallExchange.Proofs.StreamEnds

set_option autoImplicit false

/-!
# Entries that abort

Whatever the entry of a call has done before it aborts, its port is closed again, what was queued on
it is thrown away, and nothing else is touched. The call gives a handle all the same, which keeps
nothing alive. Whoever asks it first is told of the abort, also when a value was delivered before;
after that it has nothing to say.
-/

namespace CallExchange

variable {α ε : Type}

namespace Exchange

/-- `p` is given up with all that was queued on it, and every other port and slot is as it was. -/
structure Undone (p : PortId) (x y : Exchange) : Prop where
  ticket : y.ticket? p = none
  name : y.portName? p = none
  inbox : y.inbox p = ⟨[], true⟩
  others : ∀ q, q ≠ p → SamePort q x y
  slots : ∀ k, x.ticket? p ≠ some k → y.slot k = x.slot k
  closed : y.closed = x.closed

namespace Undone

variable {x x' y : Exchange} {p : PortId}

theorem of_retired (h : Retired p x y) (hb : y.inbox p = ⟨[], true⟩) : Undone p x y where
  ticket := by rw [h.ticket, if_pos rfl]
  name := by rw [h.name, if_pos rfl]
  inbox := hb
  others q hq := .of_retired h hq.symm
  slots k hk := by rw [h.slot, if_neg hk]
  closed := h.closed

theorem of_core_left (h : Undone p x' y) (hx : x'.core = x.core) : Undone p x y :=
  { h with
    others := fun q hq => (SamePort.of_core hx).trans (h.others q hq)
    slots := fun k hk => (h.slots k (by rwa [ticket?_congr hx])).trans (slot_congr hx k)
    closed := h.closed.trans (closed_congr hx) }

theorem released (h : Undone p x y) (n : Nat) : Undone p x { y with owners := n } :=
  { h with
    ticket := h.ticket
    others := fun q hq => (h.others q hq).trans ⟨rfl, rfl, rfl⟩ }

theorem isOpen_eq_false (h : Undone p x y) : y.isOpen p = false := by
  rw [isOpen_eq, h.ticket, h.name]
  rfl

end Undone

end Exchange

def Move.isQuestion : Move α ε → Bool
  | .step (.tryTake _) _ | .step (.waitTimeout _ _) _ | .step (.poll _ _) _ | .step (.wait _) _
  | .step (.next _) _ | .step (.nextTimeout _ _) _ => true
  | _ => false

def Move.asks (q : Place) (m : Move α ε) : Bool := m.place? = some q && m.isQuestion

theorem Move.place?_of_asks {q : Place} {m : Move α ε} (h : m.asks q = true) :
    m.place? = some q ∧ m.isQuestion = true := by
  rw [asks, Bool.and_eq_true, decide_eq_true_eq] at h
  exact h

/-- Whether an answer hands out the handle in `q`. If it is a result, it is ready. -/
inductive Hands : Answer α ε → Place → Prop where
  | result (n : Nat) (d : Deferred α ε) (text : String) :
      Hands (.deferred n d true text) ⟨.deferreds, n⟩
  | stream (n : Nat) (c : Stream α ε) (text : String) : Hands (.stream n c text) ⟨.streams, n⟩

def Shelf.silence : Shelf → Answer α ε
  | .streams => .ended
  | _ => .result (.error .disconnected)

namespace Floor

variable {f g : Floor α ε} {m : Move α ε} {i n c : Nat} {p : PortId} {k : Ticket} {q : Place}
  {a : Abort} {d : Deferred α ε} {past : List (Option String × Move α ε)}

inductive Owes (f : Floor α ε) (a : Abort) : Place → Prop where
  | result (n : Nat) (d : Deferred α ε) (hd : f.session.deferreds[n]?.join = some d)
      (hstate : d.state = .failed (some (.fatal a))) : Owes f a ⟨.deferreds, n⟩
  | stream (n : Nat) (c : Stream α ε) (hc : f.session.streams[n]?.join = some c)
      (hfailure : c.failure = some (.fatal a)) : Owes f a ⟨.streams, n⟩

/-- Whoever asks the handle in `q` first is told of `a`, and whoever asks it afterwards, as long as
it is there, of nothing. If it is a result, it is ready. -/
structure Tells (f : Floor α ε) (a : Abort) (q : Place) : Prop where
  ready : ∀ n reader, q = ⟨.deferreds, n⟩ →
    (f.apply reader (.step (.ready n) rfl)).1 = .reply (.flag true)
  first : ∀ reader m, m.asks q = true → (f.apply reader m).1 = .result (.error (.fatal a))
  later : ∀ reader m, m.asks q = true → ∀ past reader' m', m'.asks q = true →
    let y := runBy past (f.apply reader m).2
    (y.handle? q).isSome = true → (y.apply reader' m').1 = q.shelf.silence

theorem deferred_lt (hd : f.session.deferreds[n]?.join = some d) :
    n < f.session.deferreds.length := by
  simpa [table] using lt_of_handle? (handle?_deferred hd)

theorem deferred_set (hd : f.session.deferreds[n]?.join = some d) (o : Option (Deferred α ε)) :
    (f.session.deferreds.set n o)[n]?.join = o := by
  rw [List.getElem?_set_self (deferred_lt hd)]
  rfl

theorem asks_failed {failure : Option (Failure ε)} (thread : Option String)
    (hm : m.asks ⟨.deferreds, n⟩ = true) (hd : f.session.deferreds[n]?.join = some d)
    (hstate : d.state = .failed failure) :
    (f.apply thread m).1 = .result (.error (failure.getD .disconnected)) ∧
      ∀ d', (f.apply thread m).2.session.deferreds[n]?.join = some d' →
        d'.state = .failed none := by
  have hread : ∀ (g : OneShot Value → Except Panic (Option (OneShot.Verdict Value) × OneShot Value))
      (late : Answer α ε), let t := f.session.readDeferred n late (Deferred.readBy thread g)
      t.1 = .result (.error (failure.getD .disconnected)) ∧
        ∀ d', t.2.deferreds[n]?.join = some d' → d'.state = .failed none := by
    intro g late
    rw [Session.readDeferred, Session.withHandle, hd]
    dsimp only
    rw [Deferred.readBy_failed thread g hstate]
    refine ⟨rfl, fun d' hd' => ?_⟩
    have hput : some { d with state := .failed none } = some d' :=
      (deferred_set hd _).symm.trans hd'
    cases hput
    rfl
  obtain ⟨hplace, hquestion⟩ := Move.place?_of_asks hm
  unfold Move.place? at hplace
  split at hplace <;> cases hplace
  · exact hread _ _
  · exact hread _ _
  · exact hread _ _
  · change (f.session.waitDeferred thread n).1 = _ ∧
      ∀ d', (f.session.waitDeferred thread n).2.deferreds[n]?.join = some d' → _
    have hready : d.isReady f.session.exchange = true := by rw [Deferred.isReady, hstate]
    rw [Session.waitDeferred, Session.withHandle, hd]
    dsimp only
    rw [if_pos hready, Deferred.wait_failed thread hstate]
    refine ⟨rfl, fun d' hd' => ?_⟩
    have hgone : none = some d' := (deferred_set hd none).symm.trans hd'
    cases hgone
  · cases hquestion

theorem pull_failed {st : Stream α ε} {failure : Failure ε} (thread : Option String)
    (hm : m.pullsFrom n = true) (hc : f.session.streams[n]?.join = some st)
    (hfailure : st.failure = some failure) :
    (f.apply thread m).1 = .result (.error failure) ∧
      (f.apply thread m).2.session.streams[n]?.join =
        some { st with failure := none, finished := true } := by
  have hpull : ∀ (g : Inbox → Except Panic (Option Inbox.Received × Inbox)) (late : Answer α ε),
      let t := f.session.pullStream n (Stream.pullBy thread g) (Session.answerPull late)
      t.1 = .result (.error failure) ∧
        t.2.streams[n]?.join = some { st with failure := none, finished := true } := by
    intro g late
    have hset := stream_set hc
    rw [Session.pullStream, Session.withHandle, hc]
    simp only [Stream.pullBy, hfailure]
    exact ⟨rfl, hset _⟩
  unfold Move.pullsFrom at hm
  split at hm
  · cases of_decide_eq_true hm
    exact hpull _ _
  · cases of_decide_eq_true hm
    exact hpull _ _
  · cases hm

theorem pullsFrom_of_asks (h : m.asks ⟨.streams, n⟩ = true) : m.pullsFrom n = true := by
  obtain ⟨hplace, hquestion⟩ := Move.place?_of_asks h
  rcases Move.onStream_cases hplace with hpull | rfl | rfl
  · exact hpull
  · cases hquestion
  · cases hquestion

namespace Owes

theorem tells_result (hd : f.session.deferreds[n]?.join = some d)
    (hstate : d.state = .failed (some (.fatal a))) : f.Tells a ⟨.deferreds, n⟩ where
  ready j reader hj := by
    cases hj
    change (f.session.withHandle f.session.deferreds n _).1 = _
    rw [Session.withHandle, hd]
    change Answer.reply (.flag (d.isReady _)) = _
    rw [Deferred.isReady, hstate]
  first reader m hm := (asks_failed reader hm hd hstate).1
  later reader m hm past reader' m' hm' := by
    intro y hy
    obtain ⟨e, he⟩ := Option.isSome_iff_exists.1 hy
    rw [handle?_eq_map rfl, Option.map_eq_some_iff] at he
    obtain ⟨d₂, hd₂, -⟩ := he
    have hlt := Nat.lt_of_lt_of_le (deferred_lt hd) (shelves_apply f reader m).deferreds.length_le
    obtain ⟨d₁, hd₁, hlater⟩ := deferred_runBy hlt hd₂
    have hspent₁ := (asks_failed reader hm hd hstate).2 d₁ hd₁
    have hspent₂ : d₂.state = .failed none := by
      rcases hlater with rfl | ⟨-, rfl⟩
      · exact hspent₁
      · rfl
    exact (asks_failed reader' hm' hd₂ hspent₂).1

theorem tells_stream {st : Stream α ε} (hc : f.session.streams[n]?.join = some st)
    (hfailure : st.failure = some (.fatal a)) : f.Tells a ⟨.streams, n⟩ where
  ready j reader hj := by cases hj
  first reader m hm := (pull_failed reader (pullsFrom_of_asks hm) hc hfailure).1
  later reader m hm past reader' m' hm' := by
    intro y hy
    obtain ⟨e, he⟩ := Option.isSome_iff_exists.1 hy
    rw [handle?_eq_map rfl, Option.map_eq_some_iff] at he
    obtain ⟨c₂, hc₂, -⟩ := he
    have hc₁ := (pull_failed reader (pullsFrom_of_asks hm) hc hfailure).2
    have hleft := finished_runBy hc₁ rfl hc₂
    rw [(pull_finished reader' hc₂ (by rw [hleft]) (pullsFrom_of_asks hm')).1,
      Stream.parting_eq_ended.2 (by rw [hleft]; exact ite_self none)]
    rfl

theorem tells (h : f.Owes a q) : f.Tells a q := by
  cases h with
  | result n d hd hstate => exact tells_result hd hstate
  | stream n st hc hfailure => exact tells_stream hc hfailure

/-- The handle of a call that failed never holds the exchange, whatever becomes of it. -/
theorem not_holds (h : f.Owes a q) (past : List (Option String × Move α ε)) :
    ¬ (runBy past f).Holds q := by
  intro hholds
  cases h with
  | result n d hd hstate =>
    obtain ⟨e, he, howns⟩ := handle?_of_weight hholds.2
    rw [handle?_eq_map rfl, Option.map_eq_some_iff] at he
    obtain ⟨d', hd', rfl⟩ := he
    obtain ⟨d₀, hd₀, hlater⟩ := deferred_runBy (deferred_lt hd) hd'
    rw [hd] at hd₀
    cases hd₀
    have hfree : d'.holds = false := by
      rcases hlater with rfl | ⟨-, rfl⟩
      · rw [Deferred.holds, hstate]
      · rfl
    rw [Handle.owns, hfree] at howns
    exact absurd howns (Nat.lt_irrefl 0)
  | stream n st hc hfailure =>
    obtain ⟨c', hc', hopen⟩ := holds_stream.1 hholds
    obtain ⟨c₀, hc₀, hlater⟩ := stream_runBy (stream_lt hc) hc'
    rw [hc] at hc₀
    cases hc₀
    have hheld := hlater.holds hopen
    rw [Stream.holds, hfailure, Option.isNone_some, Bool.and_false] at hheld
    cases hheld

theorem of_handle (h : f.Owes a q) (hkept : ∀ e, f.handle? q = some e → g.handle? q = some e) :
    g.Owes a q := by
  cases h with
  | result n d hd hstate =>
    exact .result n d (deferred_of_handle? (hkept _ (handle?_deferred hd))) hstate
  | stream n st hc hfailure =>
    exact .stream n st (stream_of_handle? (hkept _ (handle?_stream hc))) hfailure

end Owes

theorem Sound.shared_of_stream {task : String} {codec : Codec α ε} {port : Exchange.Broadcast}
    (hs : f.Sound c) (hr : f.running[i]?.join = some (.stream task codec port)) :
    2 ≤ f.exchange.owners := by
  have hdispatcher : total (f.table .dispatcher) = 1 := by
    rw [table, hs.calls _ _ (handle?_running hr) rfl]
    rfl
  have hrunning : 1 ≤ total (f.table .running) := by
    have hweight : weight (f.handle? ⟨.running, i⟩) = 1 := by
      rw [handle?_running hr]
      rfl
    rw [← hweight]
    exact weight_le_total _ i
  rw [hs.owned, claims]
  omega

structure Aborts (f : Floor α ε) (t : Turn α ε) (p : PortId) (a : Abort) (q : Place) : Prop where
  hands : Hands t.1 q
  undone : Exchange.Undone p f.exchange t.2.exchange
  owes : t.2.Owes a q

theorem abort_async {task : String} {codec : Codec α ε} (hs : f.Sound c) (hi : f.Inboxless)
    (hr : f.running[i]?.join = some (.async task codec p k)) (thread : Option String)
    (panic : Panic) :
    f.Aborts (f.apply thread (.finish i (.error panic))) p (.observed thread task panic.message)
      ⟨.deferreds, f.session.deferreds.length⟩ := by
  obtain ⟨-, hp⟩ := hs.ports _ _ p (handle?_running hr) rfl
  have hretired := Exchange.retired_closePort hs.consistent hp
  have hinbox : (f.exchange.closePort p).2.inbox p = ⟨[], true⟩ := by
    rw [Exchange.inbox_closePort hs.consistent hp, hi _ _ p (handle?_running hr) rfl rfl]
    rfl
  rw [finish_some thread _ hr]
  refine ⟨.result _ _ _, .of_retired (hretired.of_core rfl) hinbox,
    .result _ ⟨.failed (some (.fatal _)), codec, task, p⟩ ?_ rfl⟩
  exact congrArg Option.join List.getElem?_concat_length

theorem abort_stream {task : String} {codec : Codec α ε} {port : Exchange.Broadcast}
    (hs : f.Sound c) (hr : f.running[i]?.join = some (.stream task codec port))
    (thread : Option String) (panic : Panic) :
    f.Aborts (f.apply thread (.finish i (.error panic))) port.id
      (.observed thread port.name panic.message) ⟨.streams, f.session.streams.length⟩ := by
  obtain ⟨-, hp⟩ := hs.ports _ _ port.id (handle?_running hr) rfl
  let x := f.exchange.note (.aborted (.observed thread port.name panic.message))
  have hx : x.Consistent := hs.consistent.of_core rfl
  obtain ⟨hretired, hinbox⟩ := Exchange.Broadcast.retired_close hx port hp
  have hrelease : (port.close x).2.release =
      { (port.close x).2 with owners := (port.close x).2.owners - 1 } := by
    refine Exchange.release_of_shared ?_
    rw [hretired.owners]
    exact hs.shared_of_stream hr
  have hundone : Exchange.Undone port.id f.exchange (port.close x).2.release := by
    rw [hrelease]
    exact ((Exchange.Undone.of_retired hretired hinbox).released _).of_core_left rfl
  rw [finish_some thread _ hr]
  refine ⟨.stream _ _ _, hundone, .stream _ ⟨port, codec, task, some (.fatal _), false⟩ ?_ rfl⟩
  exact congrArg Option.join List.getElem?_concat_length

/-- What each of the moves of several threads keeps, all of them keep, as long as there are numbers
left for the ports that they open. -/
theorem Sound.keeps {P : Floor α ε → Prop} {ms : List (Option String × Move α ε)}
    (hs : f.Sound (ms.countP (fun e => e.2.opensPort) + n))
    (hstep : ∀ e ∈ ms, ∀ {g : Floor α ε} {c : Nat}, g.Sound (e.2.opensPort.toNat + c) → P g →
      P (g.apply e.1 e.2).2)
    (hf : P f) : (runBy ms f).Sound n ∧ P (runBy ms f) := by
  induction ms generalizing f with
  | nil =>
    rw [List.countP_nil, Nat.zero_add] at hs
    exact ⟨hs, hf⟩
  | cons e ms ih =>
    have hcount : (e :: ms).countP (fun e => e.2.opensPort) + n =
        e.2.opensPort.toNat + (ms.countP (fun e => e.2.opensPort) + n) := by
      rw [List.countP_cons]
      cases e.2.opensPort with
      | false => simp
      | true =>
        simp
        omega
    rw [hcount] at hs
    exact ih (hs.apply e.1) (fun e' he' => hstep e' (List.mem_cons_of_mem _ he'))
      (hstep e List.mem_cons_self hs hf)

structure Sealed (p : PortId) (f : Floor α ε) : Prop where
  issued : f.exchange.Issued p
  shut : f.exchange.isOpen p = false
  inbox : f.exchange.inbox p = ⟨[], true⟩

theorem sealed_of_inbox (hs : f.Sound c) (hi : f.exchange.hasInbox p = true)
    (hb : f.exchange.inbox p = ⟨[], true⟩) : f.Sealed p where
  issued := hs.consistent.inbox_issued p hi
  shut := by
    have hticket : (f.exchange.ticket? p).isSome = false := by
      refine Bool.eq_false_iff.2 fun ht => ?_
      rw [hs.consistent.pending_hasInbox p ht] at hi
      cases hi
    rw [Exchange.isOpen_eq, hticket, hs.consistent.open_iff, hb]
    rfl
  inbox := hb

theorem Sealed.apply (h : f.Sealed p) (hs : f.Sound (m.opensPort.toNat + n))
    (thread : Option String) : (f.apply thread m).2.Sealed p := by
  obtain ⟨ops, he⟩ := hs.effect thread m
  exact ⟨issued_apply hs h.issued thread,
    he.runs.stays_shut hs.consistent (he.fit hs) h.issued h.shut,
    he.runs.stays_empty hs.consistent (he.fit hs) h.issued h.inbox⟩

theorem Sealed.run {ms : List (Move α ε)} (h : f.Sealed p)
    (hs : f.Sound (ms.countP Move.opensPort + c)) (thread : Option String) :
    (run thread ms f).Sealed p := by
  induction ms generalizing f with
  | nil => exact h
  | cons m ms ih =>
    rw [countP_opens_cons] at hs
    exact ih (h.apply hs thread) (hs.apply thread)

theorem Sealed.deliver (h : f.Sealed p) (hs : f.Sound n) (thread : Option String) (v : Value) :
    (f.apply thread (.deliver p v)).1 = .reply (.delivery .dropped) := by
  have hdead : f.exchange.isDead p = true := by
    rw [hs.consistent.isDead_eq, h.shut]
    rfl
  change Answer.reply (.delivery (f.exchange.deliver p v).1) = _
  rw [hs.consistent.deliver_dead hdead]

theorem abort_of_starts {call : Call α ε} {r : Running α ε} {panic : Panic} (hs : f.Sound c)
    (hi : f.Inboxless) (hstarts : call.Starts r) (hport : (Handle.running r).port? = some p)
    (hr : f.running[i]?.join = some r) (thread : Option String) :
    ∃ name q, (call.kind = .normal → name = call.task) ∧
      f.Aborts (f.apply thread (.finish i (.error panic))) p
        (.observed thread name panic.message) q := by
  cases hstarts with
  | normal p' k hkind =>
    cases hport
    exact ⟨_, _, fun _ => rfl, abort_async hs hi hr thread panic⟩
  | sync hkind => cases hport
  | stream port j hkind hname =>
    cases hport
    refine ⟨_, _, fun hnormal => ?_, abort_stream hs hr thread panic⟩
    rw [hkind] at hnormal
    cases hnormal

/-- A call with a port of its own that is not refused, on any floor that is reached, and whose entry
aborts, whatever was done by it and by all other threads while it ran. The call gives its handle,
and its port is closed again with nothing left on it, while every other port and slot is as it was.
From then on whatever is posted to the port is dropped, and the exchange is there exactly as long as
something else holds it. The first to ask the handle is told of the abort, and nobody after that is
told of anything. -/
theorem runBy_undoes {s : Settings} {x : Exchange} (hx : Exchange.create s = .ok x)
    (before during after : List (Option String × Move α ε)) (call : Call α ε) (panic : Panic)
    (r : Running α ε) (p : PortId)
    (hfew : (before ++ (call.caller, call.begins) :: during ++ after).countP
      (fun e => e.2.opensPort) + 1 < PortId.supply) :
    let f := runBy before (start x)
    let i := f.running.length
    (f.apply call.caller call.begins).2.running[i]?.join = some r →
    (Handle.running r).port? = some p → (∀ e ∈ during, ∀ ended, e.2 ≠ .finish i ended) →
    call.ended = .error panic →
    let g := runBy ((call.caller, call.begins) :: during) f
    let t := g.apply call.caller (.finish i call.ended)
    let y := runBy after t.2
    ∃ name q, (call.kind = .normal → name = call.task) ∧ Hands t.1 q ∧
      Exchange.Undone p g.exchange t.2.exchange ∧
      (y.exchange.isOpen p = false ∧ y.exchange.inbox p = ⟨[], true⟩ ∧
        ∀ thread v, (y.apply thread (.deliver p v)).1 = .reply (.delivery .dropped)) ∧
      (y.exchange.isGone = false ↔ ∃ q', q' ≠ q ∧ y.Holds q') ∧
      ((∀ e ∈ after, e.2.place? ≠ some q) →
        y.Tells (.observed call.caller name panic.message) q) := by
  intro f i hbegun hport hentry hended g t y
  have hstart : (start x : Floor α ε).Sound _ := sound_start hx hfew
  rw [List.countP_append, List.countP_append, Nat.add_assoc] at hstart
  -- the floor on which the call begins, and the one on which its entry aborts
  obtain ⟨hf, hif⟩ := hstart.keeps (fun e _ _ _ hs hi => Inboxless.apply hi hs e.1)
    (inboxless_start x)
  obtain ⟨hg, hig⟩ := hf.keeps (fun e _ _ _ hs hi => Inboxless.apply hi hs e.1) hif
  have hruns : g.running[i]?.join = some r :=
    running_runBy (f := (f.apply call.caller call.begins).2) hbegun hentry
  obtain ⟨name, q, hname, habort⟩ : ∃ name q, (call.kind = .normal → name = call.task) ∧
      g.Aborts t p (.observed call.caller name panic.message) q := by
    rw [show t = g.apply call.caller (.finish i (.error panic)) by rw [← hended]]
    exact abort_of_starts hg hig (starts_of_begins hbegun) hport hruns call.caller
  have hover : g.Sound ((Move.finish i call.ended : Move α ε).opensPort.toNat +
      after.countP (fun e => e.2.opensPort)) := by
    rw [show (Move.finish i call.ended : Move α ε).opensPort.toNat = 0 from rfl, Nat.zero_add]
    exact hg
  have ht : t.2.Sound (after.countP (fun e => e.2.opensPort) + 0) := hover.apply call.caller
  have hsealed : t.2.Sealed p :=
    ⟨issued_apply hover (hg.ports _ _ p (handle?_running hruns) hport).1 call.caller,
      habort.undone.isOpen_eq_false, habort.undone.inbox⟩
  obtain ⟨hy, hstays⟩ := ht.keeps (fun e _ _ _ hs h => Sealed.apply h hs e.1) hsealed
  refine ⟨name, q, hname, habort.hands, habort.undone,
    ⟨hstays.shut, hstays.inbox, fun thread v => hstays.deliver hy thread v⟩,
    hy.alive_iff_others (habort.owes.not_holds after), fun hunused => ?_⟩
  have howes : y.Owes (.observed call.caller name panic.message) q := by
    refine (ht.keeps (P := fun g => g.Owes _ q) (fun e he g' _ hs h => ?_) habort.owes).2
    obtain ⟨ops, heffect⟩ := hs.effect e.1 e.2
    exact h.of_handle fun h' hq' => heffect.kept q h' (hunused e he) hq'
  exact howes.tells

/-- The entry delivers a value to its own port, keeps the port and aborts. What is read is the
abort, once, and what is posted through the port that was kept is dropped. -/
theorem runBy_undoes_delivered : ∃ x, Exchange.create .standard = .ok x ∧
    let codec : Codec Int64 String := TaggedCodec.toCodec ⟨Value.int?, Value.text?, none⟩
    let call : Call Int64 String := ⟨.normal, "d", codec, some "main", .error (.text "boom")⟩
    let during : List (Option String × Move Int64 String) :=
      [(none, .keep ⟨1⟩), (none, .deliver ⟨1⟩ (.int 5))]
    let g := runBy ((call.caller, call.begins) :: during) (start x)
    let t := g.apply call.caller (.finish 0 call.ended)
    let read : Move Int64 String := .step (.tryTake 0) rfl
    let u := t.2.apply none read
    g.exchange.slot 0 = .ready (.int 5) ∧ Hands t.1 ⟨.deferreds, 0⟩ ∧
      Exchange.Undone ⟨1⟩ g.exchange t.2.exchange ∧
      (t.2.apply none (.deliver ⟨1⟩ (.int 6))).1 = .reply (.delivery .dropped) ∧
      (t.2.exchange.isGone = false ↔ ∃ q, q ≠ ⟨.deferreds, 0⟩ ∧ t.2.Holds q) ∧
      u.1 = .result (.error (.fatal ⟨"d", "boom", "main"⟩)) ∧
      (u.2.apply none read).1 = .result (.error .disconnected) := by
  obtain ⟨x, hx⟩ : ∃ x, Exchange.create .standard = .ok x := ⟨_, rfl⟩
  refine ⟨x, hx, ?_⟩
  intro codec call during g t read u
  have hfew : ([] ++ (call.caller, call.begins) :: during ++ []).countP
      (fun e : Option String × Move Int64 String => e.2.opensPort) + 1 < PortId.supply := by decide
  have hbegun : ((start x).apply call.caller call.begins).2.running[0]?.join =
      some (.async "d" codec ⟨1⟩ 0) := by
    cases hx
    rfl
  have hentry : ∀ e ∈ during, ∀ ended, e.2 ≠ .finish 0 ended := by simp [during]
  obtain ⟨name, q, hname, hhands, hundone, ⟨-, -, hdropped⟩, halive, htells⟩ :=
    runBy_undoes hx [] during [] call (.text "boom") (.async "d" codec ⟨1⟩ 0) ⟨1⟩ hfew hbegun rfl
      hentry rfl
  have hslot : g.exchange.slot 0 = .ready (.int 5) := by
    cases hx
    rfl
  obtain ⟨d, text, hanswer⟩ : ∃ d text, t.1 = .deferred 0 d true text := by
    cases hx
    exact ⟨_, _, rfl⟩
  have hleft : (u.2.handle? ⟨.deferreds, 0⟩).isSome = true := by
    cases hx
    rfl
  cases hname rfl
  have hgiven : Hands (.deferred 0 d true text) q := hanswer ▸ hhands
  cases hgiven
  have htold := htells (by simp)
  exact ⟨hslot, hhands, hundone, hdropped none (.int 6), halive,
    htold.first none read rfl, htold.later none read rfl [] none read rfl hleft⟩

end Floor

end CallExchange
