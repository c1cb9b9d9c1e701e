import CallExchange.Proofs.Exchange.Settlements
import CallExchange.Proofs.Floor.Frames
import CallExchange.Proofs.Floor.Watch

set_option autoImplicit false

/-!
# Settlements on the floor

What a move does to the slots of pending calls: it reads at most one, by the handle that it uses,
and settles those whose ports it takes out of the table, a post with its value and any other move
without one.
-/

namespace CallExchange

open Exchange (Lapses)

variable {α ε : Type}

def Move.look? : Move α ε → Option (Place × OneShot.Read)
  | .step (.ready n) _ => some (⟨.deferreds, n⟩, .isSettled)
  | .step (.tryTake n) _ => some (⟨.deferreds, n⟩, .tryTake)
  | .step (.waitTimeout n t) _ => some (⟨.deferreds, n⟩, .waitTimeout t)
  | .step (.poll n w) _ => some (⟨.deferreds, n⟩, .poll w)
  | .step (.wait n) _ => some (⟨.deferreds, n⟩, .wait)
  | .step (.readTicket n r) _ => some (⟨.singles, n⟩, r)
  | _ => none

namespace OneShot

def Read.By (r : Read) (g : OneShot Value → Except Panic (Option (Verdict Value) × OneShot Value)) :
    Prop :=
  ∀ s, (r.run s).2 = match g s with
    | .ok a => a.2
    | .error _ => s

theorem run_wait_of_open {s : OneShot Value} (h : s.isSettled = false) :
    (Read.wait.run s).2 = s := by
  cases s with
  | pending w => rfl
  | _ => cases h

theorem by_tryTake : Read.tryTake.By fun s => .ok s.take := fun _ => answerOf_snd ..

theorem by_poll (w : Waker) : (Read.poll w).By fun s => .ok (s.poll w) := fun _ => answerOf_snd ..

theorem by_waitTimeout (t : Timeout) : (Read.waitTimeout t).By (takeWithin t) := by
  intro s
  rw [Read.run_waitTimeout, takeWithin]
  split
  · rfl
  · exact answerOf_snd ..

end OneShot

namespace Exchange

variable {x : Exchange} {k : Ticket} {how : OneShot.Read}

def looked (x : Exchange) (k : Ticket) (how : OneShot.Read) : Exchange :=
  x.setSlot k (how.run (x.pending.slot k)).2

theorem looked_same (h : (how.run (x.pending.slot k)).2 = x.pending.slot k) :
    x.looked k how = x := by
  rw [looked, h, setSlot, Pending.setSlot_slot]

theorem frame_calls : ReportFrame fun x y => y.calls = x.calls := ⟨fun _ => rfl, fun _ _ => rfl⟩

theorem frame_lapses : WideFrame Lapses where
  refl _ := .calm rfl
  trans := .trans
  note _ _ := .calm rfl
  setInbox _ _ _ := .calm rfl
  closePort := lapses_closePort
  close b x := b.lapses_close x
  release := lapses_release
  hold _ := .calm rfl
  record _ _ := .calm rfl
  use _ _ := .calm rfl

end Exchange

theorem OneShot.Read.By.readsSlot {how : OneShot.Read}
    {g : OneShot Value → Except Panic (Option (OneShot.Verdict Value) × OneShot Value)}
    (hg : how.By g) : Deferred.ReadsSlot g := by
  intro s a ha
  have hs := hg s
  rw [ha] at hs
  exact ⟨how, hs⟩

section Results

variable {d : Deferred α ε} {k : Ticket} (thread : Option String) (hd : d.state = .waiting k)

include hd

theorem Deferred.readBy_looked {how : OneShot.Read}
    {g : OneShot Value → Except Panic (Option (OneShot.Verdict Value) × OneShot Value)}
    (hg : how.By g) (x : Exchange) : ∃ y, (Deferred.readBy thread g (d, x)).EndsIn (d, y) ∧
      y.calls = (x.looked k how).calls := by
  obtain ⟨y, hends, -⟩ := Deferred.readBy_waiting thread hg.readsSlot hd x
  have hy := Outcome.of_endsIn hends (Exchange.frame_calls.readBy_waiting hd x g)
  have hslot := hg (x.pending.slot k)
  refine ⟨y, hends, ?_⟩
  split at hy
  · rename_i a ha
    rw [ha] at hslot
    rw [hy, Exchange.looked, hslot]
  · rename_i p hp
    rw [hp] at hslot
    rw [show y = x from hy, Exchange.looked_same hslot]

theorem Deferred.wait_looked {x : Exchange} (hready : d.isReady x = true) :
    ∃ y, (d.wait thread x).EndsIn y ∧ Lapses (x.looked k .wait) y := by
  obtain ⟨v, s, hs⟩ := Deferred.slot_of_isReady hd hready
  have hlooked : x.looked k .wait = x.setSlot k s := by
    have hrun : (OneShot.Read.wait.run (x.pending.slot k)).2 = (x.pending.slot k).take.2 :=
      OneShot.answerOf_snd ..
    rw [Exchange.looked, hrun, hs]
  obtain ⟨y, -, hends⟩ := d.finish_endsIn thread v (x.setSlot k s)
  have hy := Outcome.of_endsIn hends (Exchange.frame_calls.finish d v _)
  rw [Deferred.wait_settled thread hd hs, hlooked]
  refine ⟨d.letGo y, ?_, .of_calm hy (Exchange.frame_lapses.letGo d y)⟩
  rcases hends with ⟨b, hb⟩ | ⟨p, hp⟩
  · rw [hb]
    exact .inl ⟨_, rfl⟩
  · rw [hp]
    exact .inr ⟨_, rfl⟩

end Results

namespace Floor

variable {f : Floor α ε} {m : Move α ε} {t : Turn α ε} {n : Nat} {k : Ticket} {how : OneShot.Read}
  {q : Place} {thread : Option String}

def reading? (f : Floor α ε) (m : Move α ε) : Option (Ticket × OneShot.Read) :=
  m.look?.bind fun l => ((f.handle? l.1).bind Handle.ticket?).map fun k => (k, l.2)

/-- What a move does to the pending calls, and whom it wakes. -/
inductive Treats (f : Floor α ε) (m : Move α ε) (t : Turn α ε) : Prop where
  | gives (hm : f.reading? m = none) (h : Exchange.Gives (fun p => m.postTo? p) f.exchange t.2.exchange)
  | opened (hm : f.reading? m = none) {p : PortId} {k : Ticket}
      (hr : f.exchange.pending.register p = .ok (k, t.2.exchange.pending))
      (hw : t.2.exchange.woken = f.exchange.woken)
  | looked {k : Ticket} {how : OneShot.Read} (hm : f.reading? m = some (k, how))
      (h : t.2.exchange.calls = (f.exchange.looked k how).calls)
  | waited {k : Ticket} (hm : f.reading? m = some (k, .wait)) (hpost : m.post? = none)
      (hk : (f.exchange.pending.slot k).isSettled = true)
      (h : Lapses (f.exchange.looked k .wait) t.2.exchange)

theorem reading?_of_look? (hm : m.look? = none) : f.reading? m = none := by
  rw [reading?, hm]
  rfl

theorem reading?_eq (hm : m.look? = some (q, how)) :
    f.reading? m = ((f.handle? q).bind Handle.ticket?).map fun k => (k, how) := by
  rw [reading?, hm]
  rfl

namespace Treats

theorem calm (hm : f.reading? m = none) (h : t.2.exchange.calls = f.exchange.calls) :
    f.Treats m t := .gives hm (.calm h)

theorem lapses (hm : m.look? = none) (hpost : m.post? = none)
    (h : Lapses f.exchange t.2.exchange) : f.Treats m t := by
  refine .gives (reading?_of_look? hm) ?_
  have hgiven : (fun p => m.postTo? p) = fun _ => none := by
    funext p
    rw [Move.postTo?, hpost]
    rfl
  rw [hgiven]
  exact h

end Treats

theorem treats_deferred (how : OneShot.Read) {g : Deferred α ε → Session.Turn α ε}
    (hm : m.look? = some (⟨.deferreds, n⟩, how))
    (hfailed : ∀ d failure, d.state = .failed failure →
      (f.turn (g d)).2.exchange.calls = f.exchange.calls)
    (hwaiting : ∀ d k, d.state = .waiting k → f.reading? m = some (k, how) →
      f.Treats m (f.turn (g d))) :
    f.Treats m (f.turn (f.session.withHandle f.session.deferreds n g)) := by
  have hread := reading?_eq (f := f) hm
  unfold Session.withHandle
  cases hd : f.session.deferreds[n]?.join with
  | none =>
    rw [handle?_eq_map rfl, hd] at hread
    exact .calm hread rfl
  | some d =>
    rw [handle?_deferred hd, Option.bind_some] at hread
    cases hstate : d.state with
    | failed failure =>
      refine .calm (hread.trans ?_) (hfailed d failure hstate)
      obtain ⟨state, codec, task, port⟩ := d
      cases hstate
      rfl
    | waiting k =>
      rw [Handle.ticket?_waiting hstate] at hread
      exact hwaiting d k hstate hread

theorem treats_readDeferred (how : OneShot.Read) (hm : m.look? = some (⟨.deferreds, n⟩, how))
    (late : Answer α ε)
    {g : OneShot Value → Except Panic (Option (OneShot.Verdict Value) × OneShot Value)}
    (hg : how.By g) :
    f.Treats m (f.turn (f.session.readDeferred n late (Deferred.readBy thread g))) := by
  refine treats_deferred how hm (fun d failure hd => ?_) fun d k hd hread => .looked hread ?_
  · rw [Deferred.readBy_failed thread g hd]
    rfl
  · obtain ⟨y, ⟨b, hr⟩ | ⟨p, hr⟩, hy⟩ := Deferred.readBy_looked thread hd hg f.exchange <;>
      rw [session_exchange, hr] <;> exact hy

theorem treats_ready (h : (Step.ready n : Step α ε).isElementary = true) :
    f.Treats (.step (.ready n) h) (f.apply thread (.step (.ready n) h)) := by
  refine treats_deferred .isSettled rfl (fun _ _ _ => rfl) fun d k _ hread => .looked hread ?_
  rw [Exchange.looked_same rfl]
  rfl

theorem treats_wait (h : (Step.wait n : Step α ε).isElementary = true) :
    f.Treats (.step (.wait n) h) (f.apply thread (.step (.wait n) h)) := by
  refine treats_deferred .wait rfl (fun d failure hd => ?_) fun d k hd hread => ?_
  · rw [Deferred.wait_failed thread hd]
    split <;> rfl
  · rw [session_exchange]
    split
    · rename_i hready
      obtain ⟨y, hends, hy⟩ := Deferred.wait_looked thread hd hready
      rw [Deferred.isReady, hd] at hready
      rcases hends with ⟨b, hr⟩ | ⟨p, hr⟩ <;> rw [hr] <;> exact .waited hread rfl hready hy
    · rename_i hready
      rw [Deferred.isReady, hd, Bool.not_eq_true] at hready
      refine .looked hread ?_
      rw [Exchange.looked_same (OneShot.run_wait_of_open hready)]
      rfl

theorem treats_readTicket (r : OneShot.Read)
    (h : (Step.readTicket n r : Step α ε).isElementary = true) :
    f.Treats (.step (.readTicket n r) h) (f.apply thread (.step (.readTicket n r) h)) := by
  have hread := reading?_eq (f := f) (m := .step (.readTicket n r) h) rfl
  change f.Treats _ (f.turn (f.session.readTicket n r))
  unfold Session.readTicket
  cases hk : f.session.tickets[n]?.join with
  | none =>
    rw [handle?_eq_map rfl, hk] at hread
    exact .calm hread rfl
  | some k =>
    rw [handle?_single hk] at hread
    exact .looked hread rfl

theorem treats_whileUp {g : Exchange → Outcome Stage Reply} (hm : m.look? = none)
    (hlive : ∃ r st, g f.exchange = .returned r st ∧
      Exchange.Gives (fun p => m.postTo? p) f.exchange st.exchange) :
    f.Treats m (f.turn (f.session.settle (f.session.stage.whileUp g) Session.replied)) := by
  obtain ⟨r, st, hg, hgives⟩ := hlive
  rw [Stage.whileUp]
  split
  · exact .calm (reading?_of_look? hm) rfl
  · rw [show g f.session.stage.exchange = .returned r st from hg]
    exact .gives (reading?_of_look? hm) hgives

theorem treats_act (a : Action) (h : (Step.act a : Step α ε).isElementary = true) :
    f.Treats (.step (.act a) h) (f.apply thread (.step (.act a) h)) := by
  change f.Treats _ (f.turn (f.session.settle (f.session.stage.perform 0 none a) Session.replied))
  unfold Stage.perform Stage.run
  cases a with
  | own | native | invoke | drain => cases h
  | ownClosed | keep | panic => exact .calm rfl rfl
  | nativeClosed k | nativeInfo k =>
    change f.Treats _ (f.turn (f.session.settle (Stage.withPort _ f.session.stage.kept[k]? _) _))
    cases f.session.stage.kept[k]? <;> exact .calm rfl rfl
  | post p v => exact treats_whileUp rfl ⟨_, _, rfl, f.exchange.gives_post p v⟩
  | reverse v => exact treats_whileUp rfl ⟨_, _, rfl, f.exchange.gives_post _ v⟩
  | shutdown => exact treats_whileUp rfl ⟨_, _, rfl, f.exchange.lapses_shutdown⟩
  | closePort p => exact treats_whileUp rfl ⟨_, _, rfl, f.exchange.lapses_closePort p⟩
  | notify =>
    refine treats_whileUp rfl ?_
    rw [Stage.notify]
    split <;> exact ⟨_, _, rfl, .calm rfl⟩
  | register | unregister | isOpen | portName | takeReverse | callbackCount | counters =>
    exact treats_whileUp rfl ⟨_, _, rfl, .calm rfl⟩

theorem treats_opened {r : Except Fault (PortId × Ticket)} {y : Exchange} (hm : m.look? = none)
    (ho : Exchange.OpenedSingle f.exchange r y) (ht : t.2.exchange.calls = y.calls) :
    f.Treats m t := by
  have hread := reading?_of_look? (f := f) hm
  cases ho with
  | closed | refused => exact .calm hread ht
  | opened k r _ hr =>
    have hpending : t.2.exchange.pending = r := congrArg Prod.fst ht
    exact .opened hread (hpending ▸ hr) (congrArg Prod.snd ht)

theorem treats_openSingle (h : (Step.openSingle : Step α ε).isElementary = true) :
    f.Treats (.step .openSingle h) (f.apply thread (.step .openSingle h)) := by
  change f.Treats _ (f.turn (f.session.withDispatcher _))
  unfold Session.withDispatcher
  split
  · refine treats_opened rfl f.exchange.openSingle_opened ?_
    change (f.turn (Session.addSingle f.exchange.openSingle.1
      (f.session.put f.exchange.openSingle.2))).2.exchange.calls = _
    cases f.exchange.openSingle.1 <;> rfl
  · exact .calm rfl rfl

theorem treats_beginAsync (task : String) (codec : Codec α ε) :
    f.Treats (.beginAsync task codec) (f.apply thread (.beginAsync task codec)) := by
  have hopened := f.exchange.openSingle_opened
  change f.Treats _ (f.begin (f.exchange.beginAsync task) _ _)
  unfold Floor.begin Exchange.beginAsync
  split
  · cases hs : f.exchange.openSingle with
    | mk r x =>
      rw [hs] at hopened
      cases r <;> exact treats_opened rfl hopened rfl
  · exact .calm rfl rfl

theorem treats_beginStream (task : String) (codec : Codec α ε) :
    f.Treats (.beginStream task codec) (f.apply thread (.beginStream task codec)) := by
  have hcalls := f.exchange.calls_openBroadcast task
  change f.Treats _ (f.begin (f.exchange.beginStream task) _ _)
  unfold Floor.begin Exchange.beginStream
  split
  · cases hs : f.exchange.openBroadcast task with
    | mk r x =>
      rw [hs] at hcalls
      cases r <;> exact .calm rfl hcalls
  · exact .calm rfl rfl

theorem treats_place {p : Place} (hm : m.place? = some p) (hlook : m.look? = none)
    (hpost : m.post? = none) (hlooks : m.looks = false) : f.Treats m (f.apply thread m) :=
  .lapses hlook hpost (Exchange.frame_lapses.apply_place hm fun h => by rw [hlooks] at h; cases h)

theorem treats_withDispatcher {g : Exchange → Session.Turn α ε} (hm : m.look? = none)
    (hpost : m.post? = none) (h : Lapses f.exchange (f.turn (g f.exchange)).2.exchange) :
    f.Treats m (f.turn (f.session.withDispatcher g)) :=
  .lapses hm hpost (Exchange.frame_lapses.withDispatcher h)

theorem treats_step (st : Step α ε) (h : st.isElementary = true) :
    f.Treats (.step st h) (f.apply thread (.step st h)) := by
  cases st with
  | act a => exact treats_act a h
  | callAsync | callStream | callSync | collect | pump | pumpOnce | threads => cases h
  | ready n => exact treats_ready h
  | tryTake n => exact treats_readDeferred .tryTake rfl _ OneShot.by_tryTake
  | waitTimeout n t => exact treats_readDeferred (.waitTimeout t) rfl _ (OneShot.by_waitTimeout t)
  | poll n w => exact treats_readDeferred (.poll w) rfl _ (OneShot.by_poll w)
  | wait n => exact treats_wait h
  | readTicket n r => exact treats_readTicket r h
  | openSingle => exact treats_openSingle h
  | dropDeferred | next | nextTimeout | closeStream | dropStream | receive | tryReceive
  | receiveWithin | closeBroadcast | dropBroadcast | dropDispatcher =>
    exact treats_place rfl rfl rfl rfl
  | deferredText | streamInfo | broadcastInfo =>
    exact .lapses rfl rfl (Exchange.frame_lapses.withHandle fun _ _ => .calm rfl)
  | openBroadcast task =>
    refine treats_withDispatcher rfl rfl ?_
    have hcalls := f.exchange.calls_openBroadcast task
    cases (f.exchange.openBroadcast task).1 <;> exact .calm hcalls
  | reverseHandle | dispatcherText | dispatcherCounters =>
    exact treats_withDispatcher rfl rfl (.calm rfl)
  | waitForDelivery t =>
    refine treats_withDispatcher rfl rfl ?_
    unfold Exchange.waitForDelivery
    cases f.exchange.notifier.wait <;> exact .calm rfl
  | shutdownDispatcher =>
    exact treats_withDispatcher rfl rfl
      (.of_calm (y := f.exchange.note .shutdownRequested) rfl (Exchange.lapses_shutdown _))
  | cloneDispatcher =>
    exact treats_withDispatcher rfl rfl
      (.of_calm (y := f.exchange.hold) rfl (Exchange.lapses_release _))
  | breakNotifier | saturateNotifier =>
    refine .calm rfl ?_
    change (f.turn (f.session.withNotifier _)).2.exchange.calls = _
    unfold Session.withNotifier
    dsimp only
    split <;> rfl

theorem treats_apply (f : Floor α ε) (thread : Option String) (m : Move α ε) :
    f.Treats m (f.apply thread m) := by
  cases m with
  | step st h => exact treats_step st h
  | deliver p v =>
    change f.Treats _ (f.turn (f.session.settle (f.session.stage.on (f.exchange.deliver p v) _) _))
    unfold Exchange.deliver
    split
    · exact .calm rfl rfl
    · exact .gives rfl (f.exchange.gives_post p v)
  | keep | see | announce => exact .calm rfl rfl
  | beginAsync task codec => exact treats_beginAsync task codec
  | beginStream task codec => exact treats_beginStream task codec
  | beginSync task codec =>
    change f.Treats _ (if f.session.dispatcher then _ else _)
    split <;> exact .calm rfl rfl
  | beginCallback message =>
    change f.Treats _ (f.beginCallback message)
    unfold Floor.beginCallback
    dsimp only
    split
    · exact .calm rfl rfl
    · split <;> exact .calm rfl rfl
  | finish i ended => exact treats_place rfl rfl rfl rfl

/-- What a move that leaves the table `r'` does to the slot of `k`: it reads it, or takes the port
that waits for it out of the table, by a post to that port or otherwise. -/
def acts (f : Floor α ε) (m : Move α ε) (r' : Pending) (k : Ticket) : Option (OneShot.Act Value) :=
  ((f.reading? m).bind fun l => if l.1 = k then some (.read l.2) else none).or
    (f.exchange.pending.settling (Pending.leaving (fun p => m.postTo? p) r') k)

section Acts

variable {r' : Pending}

theorem acts_unread (hm : f.reading? m = none) : f.acts m r' k =
    f.exchange.pending.settling (Pending.leaving (fun p => m.postTo? p) r') k := by
  rw [acts, hm]
  rfl

theorem acts_read (hm : f.reading? m = some (k, how)) (j : Ticket) :
    f.acts m r' j = if j = k then some (.read how) else
      f.exchange.pending.settling (Pending.leaving (fun p => m.postTo? p) r') j := by
  rw [acts, hm, Option.bind_some]
  by_cases hj : j = k
  · rw [if_pos hj, if_pos hj.symm]
    rfl
  · rw [if_neg hj, if_neg (Ne.symm hj)]
    rfl

end Acts

/-- A move does its acts to the slots and wakes whom they wake. -/
theorem Treats.steps (ht : f.Treats m t) (hx : f.exchange.pending.Sound) :
    ∃ ws, t.2.exchange.woken = f.exchange.woken ++ ws ∧
      Pending.Steps (f.acts m t.2.exchange.pending) f.exchange.pending t.2.exchange.pending ws := by
  cases ht with
  | gives hm h =>
    obtain ⟨s, hs, ws, hws, hsettles⟩ := h hx
    exact ⟨ws, hws, (hsettles.leaving hx hs).steps fun k _ => acts_unread hm⟩
  | opened hm hr hw =>
    refine ⟨[], hw.trans (List.append_nil _).symm, Pending.steps_register hx hr fun j _ => ?_⟩
    rw [acts_unread hm]
    refine Pending.settling_leaving hx (fun p k hp => ?_) j
    rw [Pending.contains_eq, Pending.ticket?_register hr, hp]
    split <;> rfl
  | @looked k how hm h =>
    have hpending : t.2.exchange.pending = (f.exchange.pending.read k how).2 := congrArg Prod.fst h
    have hsound : (f.exchange.pending.read k how).2.Sound := hx.setSlot (how.isSettled_run _)
    refine ⟨[], (congrArg Prod.snd h).trans (List.append_nil _).symm, ?_⟩
    rw [hpending]
    refine Pending.steps_read how ((Pending.Settles.refl hsound).leaving hsound nofun) ?_
      fun j _ => acts_read hm j
    -- the port is still waiting
    refine Pending.settling_leaving hx (fun p j hp => ?_) k
    rw [Pending.contains_eq]
    exact Option.isSome_of_eq_some hp
  | @waited k hm hpost hk h =>
    have hsound : (f.exchange.looked k .wait).pending.Sound :=
      hx.setSlot (OneShot.Read.wait.isSettled_run _)
    obtain ⟨s, hs, ws, hws, hsettles⟩ := h hsound
    have hleaving := hsettles.leaving hsound fun p v hv => (hs p v hv).trans
      (show none = m.postTo? p by rw [Move.postTo?, hpost]; rfl)
    -- nobody waits for a slot that is settled
    exact ⟨ws, hws, Pending.steps_read .wait hleaving
      (Pending.settling_of_unheld (hx.holder?_eq_none hk)) fun j _ => acts_read hm j⟩

end Floor

end CallExchange
