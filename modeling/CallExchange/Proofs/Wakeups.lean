import CallExchange.Proofs.Floor.Changes
import CallExchange.Proofs.Floor.Unheard
import CallExchange.Proofs.Floor.Watch
import CallExchange.Proofs.Sessions

set_option autoImplicit false

/-!
# Wake-ups for reverse calls

A wait takes all notifications there are, and a drain that stops at a call that fails leaves the
calls behind it without one. But once the queue of reverse calls has been found empty after the last
wait, or anything was notified of, the next wait ends at once whenever calls are queued.
-/

namespace CallExchange

variable {α ε : Type}

theorem Inbox.queue_of_tryReceive {b : Inbox} (h : b.tryReceive.1 = none) : b.queue = [] := by
  unfold tryReceive at h
  split at h
  · assumption
  · cases h

def Move.findsNone : Move α ε × Answer α ε → Bool
  | (.step (.act .takeReverse) _, .reply (.value none)) => true
  | _ => false

def coveredBy (b : Bool) (e : Move α ε × Answer α ε) : Bool :=
  if Move.waits e then false else b || Move.findsNone e || Move.rings e

/-- Whether, since the last wait, the queue of reverse calls has been found empty or something rang.
Before the first wait there is nothing to be missed. -/
def covered (h : List (Move α ε × Answer α ε)) : Bool := h.foldl coveredBy true

namespace Floor

variable {f : Floor α ε} {m : Move α ε} {ms : List (Move α ε)} {n N : Nat} {b : Bool}
  {thread : Option String}

theorem queue_of_findsNone (h : Move.findsNone (m, (f.apply thread m).1) = true) :
    (f.exchange.inbox Exchange.reversePort).queue = [] := by
  unfold Move.findsNone at h
  split at h
  · rename_i hel heq
    obtain ⟨rfl, ha⟩ := Prod.mk.inj heq
    have hup := whileUp_answered (f := f) (r := .value none)
      (g := fun x => f.session.stage.on x.takeReverse .value) (by simp) ha
    change (f.turn (f.session.settle (f.session.stage.whileUp fun x =>
      f.session.stage.on x.takeReverse .value) Session.replied)).1 = _ at ha
    rw [hup] at ha
    exact Inbox.queue_of_tryReceive (Reply.value.inj (Answer.reply.inj ha))
  · cases h

/-- What is queued has been notified of since the last wait, if it is covered. -/
def Awake (b : Bool) (N : Nat) (f : Floor α ε) : Prop :=
  b = true → (f.exchange.inbox Exchange.reversePort).queue ≠ [] → N ≠ 0

/-- Only what rings lengthens the queue of reverse calls. -/
theorem queue_or_rings (hs : f.Sound (m.opensPort.toNat + n)) (thread : Option String) :
    ((f.apply thread m).2.exchange.inbox Exchange.reversePort).queue <:+
        (f.exchange.inbox Exchange.reversePort).queue ∨
      Move.rings (m, (f.apply thread m).1) = true ∧
        (f.apply thread m).2.exchange.signals = f.exchange.signals.ring := by
  rcases f.livePost_cases m with hquiet | ⟨q, w, hpost, hlive⟩
  · obtain ⟨ops, he⟩ := hs.effect thread m
    exact .inl ((he.nothing_new hs hquiet).2 _)
  · rw [apply_post thread hpost hlive]
    have hsig := (f.exchange.post_posted q w).signals_eq
    by_cases hd : (f.exchange.post q w).1 = .dropped
    · left
      have hposted := f.exchange.post_posted q w
      rw [hd] at hposted
      change ((f.exchange.post q w).2.inbox _).queue <:+ _
      generalize (f.exchange.post q w).2 = y at hposted
      cases hposted with
      | dropped why hd =>
        rw [Exchange.inbox_congr (Exchange.core_drop f.exchange q why)]
        exact List.suffix_rfl
    · right
      rw [if_neg hd] at hsig
      refine ⟨?_, hsig⟩
      rw [Move.rings, Bool.or_eq_true]
      left
      rw [hpost, Answer.accepted]
      simpa using hd

theorem covered_before {a : Answer α ε} {x : Exchange}
    (hfinds : Move.findsNone (m, a) = true → (x.inbox Exchange.reversePort).queue = [])
    (hrings : Move.rings (m, a) = false) (hne : (x.inbox Exchange.reversePort).queue ≠ [])
    (hb : coveredBy b (m, a) = true) : b = true := by
  rw [coveredBy, hrings, Bool.or_false] at hb
  split at hb
  · cases hb
  · rw [Bool.or_eq_true] at hb
    exact hb.resolve_right fun hnone => hne (hfinds hnone)

/-- Nothing but a wait makes what was notified heard, and what lengthens the queue notifies. -/
theorem Awake.apply (h : f.Awake b N) (hs : f.Sound (m.opensPort.toNat + n)) :
    (f.apply thread m).2.Awake (coveredBy b (m, (f.apply thread m).1))
      (f.unheardBy thread m N) := by
  intro hb hne
  have hw : Move.waits (m, (f.apply thread m).1) = false := by
    by_contra hw
    rw [coveredBy, if_pos (eq_true_of_ne_false hw)] at hb
    cases hb
  rw [unheardBy, hw, if_neg Bool.false_ne_true]
  cases hrings : Move.rings (m, (f.apply thread m).1) with
  | true =>
    rw [fires_of_rings hrings]
    exact Nat.succ_ne_zero N
  | false =>
    have hsuffix := (queue_or_rings hs thread).resolve_right fun h => by
      rw [hrings] at h
      cases h.1
    have hold : (f.exchange.inbox Exchange.reversePort).queue ≠ [] := by
      intro hnil
      rw [hnil, List.suffix_nil] at hsuffix
      exact hne hsuffix
    have hN := h (covered_before queue_of_findsNone hrings hold hb) hold
    omega

theorem Awake.run (h : f.Awake b N) (hs : f.Sound (ms.countP Move.opensPort + n)) :
    (Floor.run thread ms f).Awake ((history thread ms f).foldl coveredBy b)
      (unheard thread ms f N) := by
  induction ms generalizing f b N with
  | nil => exact h
  | cons m ms ih =>
    rw [countP_opens_cons] at hs
    exact ih (h.apply hs) (hs.apply thread)

theorem awake_start {s : Settings} {x : Exchange} (hx : Exchange.create s = .ok x) :
    (start x : Floor α ε).Awake true 0 := by
  obtain ⟨-, rfl⟩ := Exchange.create_eq hx
  exact fun _ hne => absurd rfl hne

end Floor

namespace Stage

variable {thread : Option String} {st st' : Stage} {invoke : Value → Act (Except Fault Unit)}

theorem apply_takeReverse (thread : Option String) (hlive : st.exchange.isGone = false)
    (f : Floor α ε) :
    (f.onStage st).apply thread (.step (.act .takeReverse) rfl) =
      (.reply (.value st.exchange.takeReverse.1),
        f.onStage (st.put st.exchange.takeReverse.2)) := by
  have hstep : perform 0 none .takeReverse st = st.on st.exchange.takeReverse .value := by
    rw [perform, run, whileUp, hlive]
    rfl
  change (f.onStage st).turn (Session.settle _ (perform 0 none .takeReverse st) _) = _
  rw [hstep]
  rfl

/-- From one state of a stage to another by moves after which the queue is known to be drained. -/
def Drains (α ε : Type) (thread : Option String) (st st' : Stage) : Prop :=
  ∀ f : Floor α ε, ∃ ms j, Floor.run thread ms (f.onStage st) = (f.onStage st').rest j ∧
    ∀ b, (Floor.history thread ms (f.onStage st)).foldl coveredBy b = true

theorem Plays.drains {st'' : Stage} (h : Plays α ε thread st st')
    (h' : Drains α ε thread st' st'') :
    Drains α ε thread st st'' := by
  intro f
  obtain ⟨ms, j, -, hrun⟩ := h.moves f
  obtain ⟨ms', j', hrun', hcovered⟩ := h' (f.rest j)
  refine ⟨ms ++ ms', j + j', ?_, fun b => ?_⟩
  · rw [Floor.run_append, hrun, ← Floor.rest_rest]
    exact hrun'
  · rw [Floor.history_append, List.foldl_append, hrun]
    exact hcovered _

theorem queue_takeReverse {x y : Exchange} (h : x.takeReverse = (none, y)) :
    (y.inbox Exchange.reversePort).queue = [] := by
  have hempty := Inbox.queue_of_tryReceive (congrArg Prod.fst h)
  have hy : y = x.setInbox Exchange.reversePort (x.inbox Exchange.reversePort).tryReceive.2 :=
    (congrArg Prod.snd h).symm
  rw [hy, Exchange.inbox_setInbox]
  split
  · rw [Exchange.queue_tryReceive, hempty]
    rfl
  · exact hempty

theorem drains_none {x : Exchange} (hlive : st.exchange.isGone = false)
    (h : st.exchange.takeReverse = (none, x)) : Drains α ε thread st (st.put x) := by
  intro f
  have hmove := apply_takeReverse thread hlive f
  rw [h] at hmove
  refine ⟨[.step (.act .takeReverse) rfl], 0, ?_, fun b => ?_⟩
  · rw [Floor.rest_zero]
    exact congrArg Prod.snd hmove
  · rw [Floor.history, hmove]
    change (b || true || false) = true
    rw [Bool.or_true, Bool.true_or]

/-- A drain that reports how many calls ran has found the queue empty in the end. -/
theorem drainWith_drains (hinvoke : ∀ v, Playable α ε thread (invoke v)) (bound : Nat) :
    ∀ n k {st}, drainWith invoke bound n st = .returned (.ok k) st' → st.exchange.isGone = false →
      Drains α ε thread st st' ∧ (st'.exchange.inbox Exchange.reversePort).queue = [] := by
  induction bound with
  | zero =>
    intro n k st h
    cases h
  | succ bound ih =>
    intro n k st h hlive
    have htake : Plays α ε thread st (st.put st.exchange.takeReverse.2) := .takeReverse hlive
    rw [drainWith] at h
    split at h
    · rename_i x hx
      cases h
      exact ⟨drains_none hlive hx, queue_takeReverse hx⟩
    · rename_i message x hx
      rw [hx] at htake
      have hlive' : (st.put x).exchange.isGone = false := by rw [htake.isGone, hlive]
      cases hcall : invoke message (st.put x) with
      | exhausted | unwound =>
        rw [hcall] at h
        cases h
      | returned r st₁ =>
        rw [hcall] at h
        have hplays := hinvoke message _ st₁ hlive' (.inl ⟨r, hcall⟩)
        cases r with
        | error e => cases h
        | ok u =>
          have hlive₁ : st₁.exchange.isGone = false := by rw [hplays.isGone, hlive']
          obtain ⟨hdrains, hempty⟩ := ih (n + 1) k h hlive₁
          exact ⟨(htake.trans hplays).drains hdrains, hempty⟩

theorem pump_returned {bound k : Nat} (h : pump bound st = .returned (.ok k) st') :
    ∃ b n, st.exchange.notifier.wait = .ok (b, n) ∧
      drain bound (st.put { st.exchange with notifier := n }) = .returned (.ok k) st' := by
  unfold pump Exchange.waitForDelivery at h
  cases hwait : st.exchange.notifier.wait with
  | error e =>
    rw [hwait] at h
    cases h
  | ok r =>
    rw [hwait] at h
    exact ⟨r.1, r.2, rfl, h⟩

end Stage

namespace Floor

variable {f : Floor α ε} {thread : Option String}

theorem returned_of_count {s : Session α ε} {o : Outcome Stage (Except Fault Nat)} {k : Nat}
    (h : (s.settle o fun r s => s.replied (Stage.replyToDrain r)).1 = .reply (.count k)) :
    ∃ st, o = .returned (.ok k) st := by
  cases o with
  | returned r st =>
    cases r with
    | ok k' =>
      cases h
      exact ⟨st, rfl⟩
    | error e => cases h
  | unwound | exhausted => cases h

/-- A pump that reports how many calls ran has taken the notifications and drained the queue. -/
theorem pump_drains {st : Step α ε} {bound k : Nat} (hst : (∃ t, st = .pump t) ∨ st = .pumpOnce)
    (hlive : f.session.dispatcher = true → f.exchange.isGone = false) (thread : Option String)
    (h : (f.session.step bound thread st).1 = .reply (.count k)) :
    ((f.session.step bound thread st).2.exchange.inbox Exchange.reversePort).queue = [] ∧
      ∃ t ms j, run thread (.step (.waitForDelivery t) rfl :: ms) f =
          (f.turn (f.session.step bound thread st)).2.rest j ∧
        ∀ b, (history thread (.step (.waitForDelivery t) rfl :: ms) f).foldl coveredBy b = true := by
  have hstep : f.session.step bound thread st = f.session.withDispatcher fun _ =>
      f.session.settle (f.session.stage.pump bound) fun r s => s.replied (Stage.replyToDrain r) := by
    rcases hst with ⟨t, rfl⟩ | rfl <;> rfl
  rw [hstep] at h ⊢
  rw [Session.withDispatcher] at h ⊢
  split at h
  · rename_i hd
    obtain ⟨st', hpump⟩ := returned_of_count h
    obtain ⟨b, n, hwait, hdrain⟩ := Stage.pump_returned hpump
    rw [if_pos hd, hpump]
    obtain ⟨hdrains, hempty⟩ :=
      Stage.drainWith_drains (Stage.playable_invoke bound) bound 0 k hdrain (hlive hd)
    obtain ⟨ms, j, hrun, hcovered⟩ := hdrains f
    have hmove := apply_waitForDelivery thread f.exchange.settings.pumpInterval hd hwait
    refine ⟨hempty, f.exchange.settings.pumpInterval, ms, j, ?_, fun b' => ?_⟩
    · change run thread ms (f.apply thread _).2 = _
      rw [hmove]
      exact hrun
    · rw [history, List.foldl_cons, hmove]
      exact hcovered _
  · cases h

/-- As long as the notifier has not failed, if the queue of reverse calls has been found empty since
the last wait, or anything was notified of since, then a notification is pending whenever calls are
queued, and the next wait ends at once. A notifier without a descriptor must not have gone around
since the last wait. A pump that reports how many calls ran is a run of its own, a wait and then
moves in which the queue is found empty. One that stops early, at a call that fails or is aborted,
may leave calls behind without a notification. -/
theorem run_keeps_waking {s : Settings} {x : Exchange} (hx : Exchange.create s = .ok x)
    (thread : Option String) (ms : List (Move α ε))
    (hfew : ms.countP Move.opensPort + 1 < PortId.supply)
    (hroom : (run thread ms (start x)).exchange.notifier.hasDescriptor = false →
      unheard thread ms (start x) 0 < UInt64.size) :
    let f := run thread ms (start x)
    (f.exchange.notifier.fails = false → covered (history thread ms (start x)) = true →
      (f.exchange.inbox Exchange.reversePort).queue ≠ [] →
        f.exchange.notifier.count ≠ 0 ∧ ∃ y, f.exchange.waitForDelivery = .ok (true, y)) ∧
    ∀ st bound k, ((∃ t, st = .pump t) ∨ st = .pumpOnce) →
      (f.session.step bound thread st).1 = .reply (.count k) →
        ((f.session.step bound thread st).2.exchange.inbox Exchange.reversePort).queue = [] ∧
          ∃ t rest j, run thread (.step (.waitForDelivery t) rfl :: rest) f =
              (f.turn (f.session.step bound thread st)).2.rest j ∧
            covered (history thread (ms ++ .step (.waitForDelivery t) rfl :: rest) (start x)) =
              true := by
  intro f
  have hs : (start x : Floor α ε).Sound (ms.countP Move.opensPort + 0) := sound_start hx hfew
  have hf : f.Sound 0 := hs.run thread
  have hawake : f.Awake (covered (history thread ms (start x))) (unheard thread ms (start x) 0) :=
    (awake_start hx).run hs
  have hheard : f.exchange.notifier.Hears (unheard thread ms (start x) 0) :=
    hears_run (hears_start hx) thread ms
  refine ⟨fun hok hcovered hne => ?_, fun st bound k hst hanswer => ?_⟩
  · have hpending : f.exchange.notifier.count ≠ 0 := fun hzero =>
      hawake hcovered hne ((hheard.count_eq_zero hok hroom).1 hzero)
    refine ⟨hpending,
      { f.exchange with notifier := { f.exchange.notifier with count := 0 } }, ?_⟩
    rw [Exchange.waitForDelivery, Notifier.wait_eq, hok, if_neg Bool.false_ne_true,
      show decide (f.exchange.notifier.count ≠ 0) = true from decide_eq_true hpending]
    rfl
  · have hlive : f.session.dispatcher = true → f.exchange.isGone = false := fun hd =>
      hf.isGone (owns_le_claims (handle?_dispatcher hd))
    obtain ⟨hempty, t, rest, j, hrun, hcovered⟩ := pump_drains hst hlive thread hanswer
    refine ⟨hempty, t, rest, j, hrun, ?_⟩
    rw [covered, history_append, List.foldl_append]
    exact hcovered _

/-- A call is queued and drained, and another one after it, which the next pump finds. The notifier
is one that may go around. -/
theorem run_keeps_waking_after_drain :
    ∃ x, Exchange.create { Settings.standard with notifier := .condvar } = .ok x ∧
    let call : Value := .list [.callback ⟨1⟩]
    let ms : List (Move Unit Unit) :=
      [.step (.act (.register .nullary "f" [])) rfl, .step (.act (.reverse call)) rfl,
        .step (.waitForDelivery .zero) rfl, .step (.act .takeReverse) rfl, .beginCallback call,
        .finish 0 (.ok ⟨[]⟩), .step (.act .takeReverse) rfl, .step (.act (.reverse call)) rfl]
    let f := run none ms (start x)
    ms.countP Move.opensPort + 1 < PortId.supply ∧
      f.exchange.notifier.hasDescriptor = false ∧ unheard none ms (start x) 0 = 1 ∧
      covered (history none ms (start x)) = true ∧
      (f.exchange.inbox Exchange.reversePort).queue = [call] ∧
      (∃ y, f.exchange.waitForDelivery = .ok (true, y)) ∧
      (f.session.step 2 none .pumpOnce).1 = .reply (.count 1) ∧
      ((f.session.step 2 none .pumpOnce).2.exchange.inbox Exchange.reversePort).queue = [] := by
  obtain ⟨x, hx⟩ : ∃ x, Exchange.create { Settings.standard with notifier := .condvar } = .ok x :=
    ⟨_, rfl⟩
  refine ⟨x, hx, ?_⟩
  intro call ms f
  have hfew : ms.countP Move.opensPort + 1 < PortId.supply := by decide
  obtain ⟨hkind, hone, hcovered⟩ : f.exchange.notifier.hasDescriptor = false ∧
      unheard none ms (start x) 0 = 1 ∧ covered (history none ms (start x)) = true := by
    cases hx
    unfold f ms call
    exact ⟨rfl, rfl, rfl⟩
  have hok : f.exchange.notifier.fails = false := by
    rw [Notifier.fails, hkind, Bool.false_and]
  obtain ⟨hqueue, hanswer⟩ : (f.exchange.inbox Exchange.reversePort).queue = [call] ∧
      (f.session.step 2 none .pumpOnce).1 = .reply (.count 1) := by
    cases hx
    unfold f ms call
    exact ⟨rfl, rfl⟩
  obtain ⟨hwakes, hpump⟩ := run_keeps_waking hx none ms hfew fun _ => by rw [hone]; decide
  exact ⟨hfew, hkind, hone, hcovered, hqueue, (hwakes hok hcovered (by rw [hqueue]; simp)).2,
    hanswer,
    (hpump _ _ _ (.inr rfl) hanswer).1⟩

/-- Two messages that are no calls: a pump stops at the first, and the second is left behind
without a notification. -/
theorem pump_leaves_call_behind : ∃ x, Exchange.create .standard = .ok x ∧
    let steps : List (Step Unit Unit × Option Script) :=
      [(.act (.reverse .null), none), (.act (.reverse .null), none), (.pump .zero, none)]
    let s := (Session.start x).run 1 none steps
    (s.exchange.inbox Exchange.reversePort).queue = [.null] ∧ s.exchange.notifier.count = 0 ∧
      (s.step 1 none (.waitForDelivery .zero)).1 = .reply (.flag false) :=
  ⟨_, rfl, rfl, rfl, rfl⟩

end Floor

end CallExchange
