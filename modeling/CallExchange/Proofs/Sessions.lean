import CallExchange.Proofs.Floor.Scripts
import CallExchange.Session.Report

set_option autoImplicit false

/-!
# Sessions as runs

Every step of a session is a sequence of moves, with the scripts that it runs and with a script on
another thread. So what holds in all runs of a floor holds in all sessions.
-/

namespace CallExchange

variable {α ε : Type}

namespace Session

variable {s s' s'' : Session α ε} {thread : Option String} {bound c d n : Nat}

/-- The floor of a session on which nothing is running any more. -/
def floor (s : Session α ε) (i : Nat) : Floor α ε := ⟨s, List.replicate i none⟩

theorem rest_floor (s : Session α ε) (i j : Nat) : (s.floor i).rest j = s.floor (i + j) :=
  congrArg (Floor.mk s) List.replicate_append_replicate

theorem length_floor (s : Session α ε) (i : Nat) : (s.floor i).running.length = i :=
  List.length_replicate

theorem isBusy_floor (s : Session α ε) (i : Nat) : (s.floor i).isBusy = false := by
  rw [Floor.isBusy, List.any_eq_false]
  intro r hr
  rw [List.eq_of_mem_replicate hr]
  simp

/-- From one session to another by moves of which at most `c` may open a port. -/
def Moves (thread : Option String) (c : Nat) (s s' : Session α ε) : Prop :=
  ∀ i, ∃ ms j, ms.countP Move.opensPort ≤ c ∧
    Floor.run thread ms (s.floor i) = s'.floor (i + j)

namespace Moves

theorem refl (s : Session α ε) : Moves thread c s s := fun _ => ⟨[], 0, Nat.zero_le c, rfl⟩

theorem trans (h : Moves thread c s s') (h' : Moves thread d s' s'') :
    Moves thread (c + d) s s'' := by
  intro i
  obtain ⟨ms, j, hms, hrun⟩ := h i
  obtain ⟨ms', j', hms', hrun'⟩ := h' (i + j)
  refine ⟨ms ++ ms', j + j', ?_, ?_⟩
  · rw [List.countP_append]
    omega
  · rw [Floor.run_append, hrun, hrun', Nat.add_assoc]

theorem mono (h : Moves thread c s s') (hc : c ≤ d) : Moves thread d s s' := by
  intro i
  obtain ⟨ms, j, hms, hrun⟩ := h i
  exact ⟨ms, j, Nat.le_trans hms hc, hrun⟩

theorem single (m : Move α ε) (h : ∀ i, ((s.floor i).apply thread m).2 = s'.floor i) :
    Moves thread m.opensPort.toNat s s' := by
  intro i
  refine ⟨[m], 0, ?_, h i⟩
  rw [List.countP_singleton]
  cases m.opensPort <;> decide

theorem played {st : Stage} (h : Stage.Plays α ε thread s.stage st) :
    Moves thread c s { s with stage := st } := by
  intro i
  obtain ⟨ms, j, hms, hrun⟩ := h.moves (s.floor i)
  refine ⟨ms, j, ?_, ?_⟩
  · rw [hms]
    exact Nat.zero_le c
  · rw [← rest_floor]
    exact hrun

theorem settled {β : Type} {o : Outcome Stage β} {answer : β → Session α ε → Turn α ε}
    (ho : ∀ st, o.EndsIn st → Stage.Plays α ε thread s.stage st)
    (hanswer : ∀ b s', (answer b s').2 = s') : Moves thread c s (s.settle o answer).2 := by
  cases o with
  | returned b st =>
    rw [settle, hanswer]
    exact played (ho st (.inl ⟨b, rfl⟩))
  | unwound p st => exact played (ho st (.inr ⟨p, rfl⟩))
  | exhausted => exact refl s

theorem withDispatcher {g : Exchange → Turn α ε}
    (h : s.dispatcher = true → Moves thread c s (g s.exchange).2) :
    Moves thread c s (s.withDispatcher g).2 := by
  rw [Session.withDispatcher]
  split
  · rename_i hd
    exact h hd
  · exact refl s

end Moves

section Calls

variable {task : String} {codec : Codec α ε}

theorem moves_announce (byKind : Bool) (s : Session α ε) (task : String) :
    Moves thread 0 s (s.announce byKind task) := by
  cases byKind with
  | true => exact .single (.announce task) fun _ => rfl
  | false => exact .refl s

theorem moves_code (m : Move α ε) {r : Running α ε} {begun st : Stage}
    (hbegin : ∀ i, ((s.floor i).apply thread m).2 = (({ s with stage := begun }).floor i).launch r)
    (hplays : Stage.Plays α ε thread begun st) (ended : Except Panic Buffer) :
    Moves thread m.opensPort.toNat s (Floor.conclude thread r ended { s with stage := st }).2 := by
  intro i
  obtain ⟨ms, j, hms, hrun⟩ := hplays.moves ((({ s with stage := begun }).floor i).launch r)
  refine ⟨m :: ms ++ [.finish i ended], j + 1, ?_, ?_⟩
  · rw [List.countP_append, List.countP_cons, hms]
    cases m.opensPort <;> exact Nat.le_refl _
  · rw [Floor.run_append]
    change (Floor.apply thread (Floor.run thread ms ((s.floor i).apply thread m).2) _).2 = _
    have hfinish := Floor.finish_launched thread (({ s with stage := st }).floor i) r j ended
    rw [length_floor, rest_floor] at hfinish
    have hplayed : Floor.run thread ms ((({ s with stage := begun }).floor i).launch r) =
        ((({ s with stage := st }).floor i).launch r).rest j := hrun
    rw [hbegin, hplayed]
    exact congrArg Prod.snd hfinish

theorem moves_begin {β δ : Type} (bound : Nat) (entry : Script) (m : Move α ε)
    {r : Except Fault β × Exchange} {port : β → PortId} {o : Outcome Stage (Except Fault δ)}
    (running : β → Running α ε)
    (result : β → Except Panic Unit → Exchange → δ × Exchange)
    {answer : Except Fault δ → Session α ε → Turn α ε} (hd : s.dispatcher = true)
    (hm : ∀ i, (s.floor i).apply thread m = (s.floor i).begin r port running)
    (hanswer : ∀ e s', (answer (.error e) s').2 = s')
    (hconclude : ∀ b ended s', Floor.conclude thread (running b) ended s' =
      answer (.ok (result b (ended.map fun _ => ()) s'.exchange).1)
        (s'.put (result b (ended.map fun _ => ()) s'.exchange).2))
    (herror : ∀ e x, r = (.error e, x) → o = .returned (.error e) (s.stage.put x))
    (hok : ∀ b x, r = (.ok b, x) →
      o = (Stage.performAll bound (some (port b)) entry (s.stage.put x)).caught.bind fun ended st =>
        .returned (.ok (result b ended st.exchange).1) (st.put (result b ended st.exchange).2)) :
    Moves thread m.opensPort.toNat s (s.settle o answer).2 := by
  have hbegin : ∀ i, ((s.floor i).apply thread m).2 = match r with
      | (.error _, x) => (s.put x).floor i
      | (.ok b, x) => ((s.put x).floor i).launch (running b) := by
    intro i
    rw [hm]
    unfold Floor.begin
    rw [if_pos (show (s.floor i).session.dispatcher = true from hd)]
    obtain ⟨e | b, x⟩ := r <;> rfl
  obtain ⟨e | b, x⟩ := r
  · rw [herror e x rfl, settle, hanswer]
    exact .single m hbegin
  · rw [hok b x rfl]
    cases hend : Stage.performAll bound (some (port b)) entry (s.stage.put x) with
    | returned u st =>
      have hcode := moves_code m hbegin (Stage.plays_performAll (.inl ⟨u, hend⟩)) (.ok ⟨[]⟩)
      rw [hconclude] at hcode
      exact hcode
    | unwound q st =>
      have hcode := moves_code m hbegin (Stage.plays_performAll (.inr ⟨q, hend⟩)) (.error q)
      rw [hconclude] at hcode
      exact hcode
    | exhausted => exact .refl s

theorem moves_callAsync (hd : s.dispatcher = true) (entry : Script) :
    Moves thread 1 s (s.settle (s.stage.callAsync bound thread task codec entry) addDeferred).2 := by
  have hm : ∀ i, (s.floor i).apply thread (.beginAsync task codec) = (s.floor i).begin
      (s.exchange.beginAsync task) Prod.fst fun r => .async task codec r.1 r.2 := fun _ => rfl
  refine moves_begin bound entry _ _ (fun r => Deferred.ofEntry ⟨task, thread⟩ codec r.1 r.2) hd hm
    (fun _ _ => rfl) (fun _ _ _ => rfl) ?_ ?_
  · intro e x h
    rw [Stage.callAsync, show s.stage.exchange.beginAsync task = _ from h]
  · intro b x h
    rw [Stage.callAsync, show s.stage.exchange.beginAsync task = _ from h]

theorem moves_callStream (hd : s.dispatcher = true) (entry : Script) :
    Moves thread 1 s (s.settle (s.stage.callStream bound thread task codec entry) addStream).2 := by
  have hm : ∀ i, (s.floor i).apply thread (.beginStream task codec) = (s.floor i).begin
      (s.exchange.beginStream task) Exchange.Broadcast.id fun port => .stream task codec port :=
    fun _ => rfl
  refine moves_begin bound entry _ _ (Stream.ofEntry ⟨task, thread⟩ codec) hd hm (fun _ _ => rfl)
    (fun _ _ _ => rfl) ?_ ?_
  · intro e x h
    rw [Stage.callStream, show s.stage.exchange.beginStream task = _ from h]
  · intro b x h
    rw [Stage.callStream, show s.stage.exchange.beginStream task = _ from h]

theorem moves_callSync (hd : s.dispatcher = true) (entry : SyncEntry) :
    Moves thread 0 s (s.settle (s.stage.callSync bound thread task codec entry)
      (answerSync s.exchange.counters)).2 := by
  have hbegin : ∀ i, ((s.floor i).apply thread (.beginSync task codec)).2 =
      ((s.put s.exchange.beginSync).floor i).launch (.sync task codec) := by
    intro i
    rw [Floor.apply, if_pos (show (s.floor i).session.dispatcher = true from hd)]
    rfl
  rw [Stage.callSync]
  cases hend : Stage.performAll bound none entry.script (s.stage.put s.stage.exchange.beginSync) with
  | returned u st =>
    exact moves_code (.beginSync task codec) hbegin (Stage.plays_performAll (.inl ⟨u, hend⟩))
      (.ok entry.buffer)
  | unwound q st =>
    exact moves_code (.beginSync task codec) hbegin (Stage.plays_performAll (.inr ⟨q, hend⟩))
      (.error q)
  | exhausted => exact .refl s

end Calls

section Pulls

variable {st : Stream α ε} {t t' : Stream α ε × Exchange}

def pulled (s : Session α ε) (n : Nat) (t : Stream α ε × Exchange) : Session α ε :=
  (s.put t.2).setStream n (some t.1)

theorem pulled_self (hget : s.streams[n]?.join = some st) : s.pulled n (st, s.exchange) = s := by
  change { s with streams := s.streams.set n (some st) } = s
  rw [Lookup.set_join_self hget]

theorem pulled_pulled (s : Session α ε) (n : Nat) (t t' : Stream α ε × Exchange) :
    (s.pulled n t).pulled n t' = s.pulled n t' := by
  have hset : (s.streams.set n (some t.1)).set n (some t'.1) = s.streams.set n (some t'.1) :=
    List.set_set ..
  change { s with stage := _, streams := (s.streams.set n _).set n _ } = _
  rw [hset]
  rfl

theorem streams_pulled (hn : n < s.streams.length) :
    (s.pulled n t).streams[n]?.join = some t.1 := by
  change (s.streams.set n (some t.1))[n]?.join = _
  rw [List.getElem?_set_self hn]
  rfl

theorem pullStream_snd {β : Type} {act : Stream.Act α ε β} {answer : β → Answer α ε}
    (hget : s.streams[n]?.join = some st) (h : (act (st, s.exchange)).EndsIn t) :
    (s.pullStream n act answer).2 = s.pulled n t := by
  rw [pullStream, withHandle, hget]
  dsimp only
  rcases h with ⟨r, h⟩ | ⟨p, h⟩
  · rw [h]
    rfl
  · rw [h]
    rfl

theorem moves_next (hn : n < s.streams.length) (h : (Stream.next thread t).EndsIn t') :
    Moves thread 0 (s.pulled n t) (s.pulled n t') := by
  refine .single (.step (.next n) rfl) fun i => ?_
  change (Floor.turn _ ((s.pulled n t).pullStream n (Stream.next thread) _)).2 = _
  rw [Floor.turn, pullStream_snd (streams_pulled hn) h, pulled_pulled]
  rfl

theorem moves_collectUpTo (hn : n < s.streams.length) (bound : Nat) :
    ∀ {t}, (Stream.collectUpTo thread bound t).EndsIn t' →
      Moves thread 0 (s.pulled n t) (s.pulled n t') := by
  induction bound with
  | zero =>
    intro t h
    rw [Outcome.endsIn_returned h]
    exact .refl _
  | succ bound ih =>
    intro t h
    rcases Outcome.endsIn_bind h with ⟨r, t₁, h₁, h⟩ | ⟨p, h⟩
    · have hnext : Moves thread 0 (s.pulled n t) (s.pulled n t₁) := moves_next hn (.inl ⟨r, h₁⟩)
      cases r with
      | item r => exact hnext.trans (ih (Outcome.endsIn_map h))
      | done | nothingYet =>
        rw [Outcome.endsIn_returned h]
        exact hnext
    · exact moves_next hn (.inr ⟨p, h⟩)

theorem moves_collect (n : Nat) (s : Session α ε) :
    Moves thread 0 s (s.pullStream n (Stream.collect thread) answerCollected).2 := by
  cases hget : s.streams[n]?.join with
  | none =>
    rw [pullStream, withHandle, hget]
    exact .refl s
  | some st =>
    have hn : n < s.streams.length := by
      rw [Option.join_eq_some_iff] at hget
      exact (List.getElem?_eq_some_iff.1 hget).1
    have hcollect : ∀ t', (Stream.collect thread (st, s.exchange)).EndsIn t' →
        Moves thread 0 s (s.pullStream n (Stream.collect thread) answerCollected).2 := by
      intro t' h
      rw [pullStream_snd hget h]
      have hmoves := moves_collectUpTo (s := s) hn _ h
      rw [pulled_self hget] at hmoves
      exact hmoves
    cases hend : Stream.collect thread (st, s.exchange) with
    | returned r t => exact hcollect t (.inl ⟨r, hend⟩)
    | unwound p t => exact hcollect t (.inr ⟨p, hend⟩)
    | exhausted =>
      rw [pullStream, withHandle, hget]
      dsimp only
      rw [hend]
      exact .refl s

end Pulls

theorem step_elementary {st : Step α ε} (h : st.isElementary = true) (bound : Nat) :
    s.step bound thread st = s.step 0 thread st := by
  cases st with
  | act a => cases a <;> first | rfl | cases h
  | _ => first | rfl | cases h

theorem moves_elementary {st : Step α ε} (h : st.isElementary = true) (bound : Nat) :
    Moves thread 1 s (s.step bound thread st).2 := by
  have hmove : ∀ i, ((s.floor i).apply thread (.step st h)).2 = (s.step 0 thread st).2.floor i := by
    intro i
    change ((s.floor i).step thread st).2 = _
    unfold Floor.step
    split
    · rw [isBusy_floor]
      rfl
    · rfl
  rw [step_elementary h]
  exact (Moves.single _ hmove).mono (Bool.toNat_le _)

theorem moves_pump (hlive : s.exchange.isGone = false) (hd : s.dispatcher = true) :
    Moves thread 0 s
      (s.settle (s.stage.pump bound) fun r s => s.replied (Stage.replyToDrain r)).2 := by
  cases hwait : s.exchange.waitForDelivery with
  | error e =>
    rw [Stage.pump, show s.stage.exchange.waitForDelivery = _ from hwait]
    exact .refl s
  | ok r =>
    obtain ⟨b, x⟩ := r
    have howners : x.owners = s.exchange.owners := by
      rw [Exchange.waitForDelivery] at hwait
      cases hnotifier : s.exchange.notifier.wait with
      | error e =>
        rw [hnotifier] at hwait
        cases hwait
      | ok r =>
        rw [hnotifier] at hwait
        cases hwait
        rfl
    have hwaits : Moves thread 0 s (s.put x) := by
      refine .single (.step (.waitForDelivery s.exchange.settings.pumpInterval) rfl) fun i => ?_
      change ((s.floor i).turn (s.withDispatcher _)).2 = _
      rw [withDispatcher, if_pos hd, hwait]
      rfl
    rw [Stage.pump, show s.stage.exchange.waitForDelivery = _ from hwait]
    have hdrains : ∀ st, (Stage.drain bound (s.stage.put x)).EndsIn st →
        Stage.Plays α ε thread (s.stage.put x) st := by
      intro st h
      refine Stage.playable_drain bound _ _ ?_ h
      change x.isGone = false
      rw [Exchange.isGone, howners]
      exact hlive
    have hplayed : ∀ st, (Stage.drain bound (s.stage.put x)).EndsIn st →
        Moves thread 0 s { s with stage := st } := fun st h =>
      hwaits.trans (d := 0) (.played (hdrains st h))
    dsimp only
    cases hend : Stage.drain bound (s.stage.put x) with
    | returned r st => exact hplayed st (.inl ⟨r, hend⟩)
    | unwound p st => exact hplayed st (.inr ⟨p, hend⟩)
    | exhausted => exact .refl s

theorem moves_step (bound : Nat) (hlive : s.dispatcher = true → s.exchange.isGone = false)
    (st : Step α ε) : Moves thread 1 s (s.step bound thread st).2 := by
  have hannounced : ∀ byKind task, (s.announce byKind task).dispatcher = s.dispatcher := by
    intro byKind task
    cases byKind <;> rfl
  cases st with
  | act a => exact .settled (fun st h => Stage.plays_perform h) fun _ _ => rfl
  | callAsync task codec entry byKind =>
    refine .withDispatcher fun hd => (moves_announce byKind s task).trans (moves_callAsync ?_ entry)
    rw [hannounced, hd]
  | callStream task codec entry byKind =>
    refine .withDispatcher fun hd => (moves_announce byKind s task).trans (moves_callStream ?_ entry)
    rw [hannounced, hd]
  | callSync task codec entry byKind =>
    refine .withDispatcher fun hd =>
      ((moves_announce byKind s task).trans (moves_callSync ?_ entry)).mono (Nat.zero_le 1)
    rw [hannounced, hd]
  | collect n => exact (moves_collect n s).mono (Nat.zero_le 1)
  | pump | pumpOnce =>
    exact .withDispatcher fun hd => (moves_pump (hlive hd) hd).mono (Nat.zero_le 1)
  | threads scripts => exact .settled (fun st h => Stage.plays_performThreads scripts h) fun _ _ =>
    rfl
  | _ => exact moves_elementary rfl bound

theorem moves_performApart (bound : Nat) (thread : Option String) (script : Script)
    (s : Session α ε) :
    Moves thread 0 s (s.performApart bound script).2 ∧
      ((s.performApart bound script).2.dispatcher = s.dispatcher) ∧
        (s.performApart bound script).2.exchange.isGone = s.exchange.isGone := by
  have hplayed : ∀ st : Stage, Stage.Plays α ε thread s.stage st →
      Moves thread 0 s { s with stage := st } ∧ st.exchange.isGone = s.exchange.isGone :=
    fun st h => ⟨.played h, h.isGone⟩
  rw [performApart]
  cases hend : s.stage.performApart bound script with
  | returned rs st =>
    obtain ⟨hmoves, hgone⟩ := hplayed st (Stage.plays_performApart script (.inl ⟨rs, hend⟩))
    exact ⟨hmoves, rfl, hgone⟩
  | unwound p st =>
    obtain ⟨hmoves, hgone⟩ := hplayed st (Stage.plays_performApart script (.inr ⟨p, hend⟩))
    exact ⟨hmoves, rfl, hgone⟩
  | exhausted => exact ⟨.refl s, rfl, rfl⟩

theorem moves_report (bound : Nat) (thread : Option String)
    (hlive : s.dispatcher = true → s.exchange.isGone = false) (st : Step α ε)
    (apart : Option Script) : Moves thread 1 s (s.report bound thread st apart).2 := by
  cases apart with
  | none => exact moves_step bound hlive st
  | some script =>
    change Moves thread 1 s (s.stepDuring bound thread st script).2.2
    rw [stepDuring]
    split
    · obtain ⟨hapart, hdispatcher, hgone⟩ := moves_performApart bound thread script s
      refine hapart.trans (d := 1) (moves_step bound (fun hd => ?_) st)
      rw [hgone]
      exact hlive (hdispatcher ▸ hd)
    · exact (moves_step bound hlive st).trans (moves_performApart bound thread script _).1

/-- The session after some steps, each of them with a script on another thread or without. -/
def run (bound : Nat) (thread : Option String) (steps : List (Step α ε × Option Script))
    (s : Session α ε) : Session α ε :=
  steps.foldl (fun s st => (s.report bound thread st.1 st.2).2) s

end Session

namespace Floor

variable {f : Floor α ε} {thread : Option String} {c n : Nat}

theorem Sound.live (hs : f.Sound n) (hd : f.session.dispatcher = true) :
    f.exchange.isGone = false := hs.isGone (owns_le_claims (handle?_dispatcher hd))

theorem Sound.mono (hs : f.Sound (n + c)) : f.Sound n where
  consistent := hs.consistent
  owned := hs.owned
  calls := hs.calls
  ports := hs.ports
  tickets := hs.tickets
  room := by
    have hroom := hs.room
    omega

end Floor

namespace Session

variable {s : Session α ε} {c i : Nat}

theorem moves_run (bound : Nat) (thread : Option String)
    {steps : List (Step α ε × Option Script)} (hs : (s.floor i).Sound (steps.length + c)) :
    ∃ ms j, ms.countP Move.opensPort ≤ steps.length ∧
      Floor.run thread ms (s.floor i) = (s.run bound thread steps).floor (i + j) := by
  induction steps generalizing s i with
  | nil => exact ⟨[], 0, Nat.le_refl 0, rfl⟩
  | cons st steps ih =>
    obtain ⟨ms, j, hms, hrun⟩ := moves_report bound thread (s := s) hs.live st.1 st.2 i
    have hsteps : (s.floor i).Sound (ms.countP Move.opensPort +
        (steps.length + c + (1 - ms.countP Move.opensPort))) := by
      rw [List.length_cons] at hs
      rw [show ms.countP Move.opensPort + (steps.length + c + (1 - ms.countP Move.opensPort)) =
        steps.length + 1 + c by omega]
      exact hs
    have hnext := hsteps.run thread
    rw [hrun] at hnext
    obtain ⟨ms', j', hms', hrun'⟩ := ih hnext.mono
    refine ⟨ms ++ ms', j + j', ?_, ?_⟩
    · rw [List.countP_append, List.length_cons]
      omega
    · rw [Floor.run_append, hrun, hrun', Nat.add_assoc]
      rfl

/-- A session of fewer than 2 ^ 63 - 1 steps leaves behind what a run of moves does that opens at
most one port a step. So what holds after every run of a floor holds after every session, whatever
scripts it plays and whatever other threads do in the meantime. -/
theorem run_eq_moves {settings : Settings} {x : Exchange} (hx : Exchange.create settings = .ok x)
    (bound : Nat) (thread : Option String) (steps : List (Step α ε × Option Script))
    (hfew : steps.length + 1 < PortId.supply) :
    ∃ ms j, ms.countP Move.opensPort + 1 < PortId.supply ∧
      Floor.run thread ms (Floor.start x) = ((start x).run bound thread steps).floor j := by
  have hs : ((start x : Session α ε).floor 0).Sound (steps.length + 0) :=
    Floor.sound_start hx hfew
  obtain ⟨ms, j, hms, hrun⟩ := moves_run bound thread hs
  exact ⟨ms, 0 + j, by omega, hrun⟩

end Session

end CallExchange
