import CallExchange.Proofs.Floor.Handled

set_option autoImplicit false

/-!
# Every move has an effect

The moves that are named for an operation, and code that begins and ends. In the end every move of
a floor is one of the families.
-/

namespace CallExchange

open Exchange (Op Runs)

variable {α ε : Type}

namespace Floor

variable {f : Floor α ε} {m : Move α ε} {thread : Option String}

section Actions

theorem whileUp_effect {g : Exchange → Outcome Stage Reply}
    (hg : f.exchange.isGone = false → ∃ r st ops, g f.exchange = .returned r st ∧
      Effect f m (.reply r) (f.onStage st) ops) :
    f.HasEffect m (f.turn (f.session.settle (f.session.stage.whileUp g) Session.replied)) := by
  rw [Stage.whileUp]
  by_cases hgone : f.session.stage.exchange.isGone = true
  · rw [if_pos hgone]
    refine ⟨[], .quiet _ ?_ rfl⟩
    rw [livePost, show f.exchange.isGone = true from hgone]
    exact Bool.and_false _
  · rw [if_neg hgone]
    obtain ⟨r, st, ops, he, heff⟩ := hg ((Bool.not_eq_true _).mp hgone)
    rw [show g f.session.stage.exchange = .returned r st from he]
    exact ⟨ops, heff⟩

theorem post_effect {p : PortId} {v : Value} (hm : m.post? = some (p, v)) :
    f.HasEffect m (f.turn (f.session.settle (f.session.stage.whileUp fun x =>
      f.session.stage.on (x.post p v) .delivery) Session.replied)) := by
  refine whileUp_effect fun hgone => ⟨_, _, [.post p v], rfl, .one _ (.single _ rfl) (.post hm) ?_ ?_
    ⟨rfl, rfl⟩⟩
  · intro ho
    cases ho
  · rw [livePost, hm, hgone]
    rfl

theorem closePort_effect (p : PortId)
    (h : (Step.act (.closePort p) : Step α ε).isElementary = true) :
    f.HasEffect (.step (.act (.closePort p)) h) (f.turn (f.session.settle
      (f.session.stage.whileUp fun x => f.session.stage.on (x.closePort p) .flag)
        Session.replied)) := by
  refine whileUp_effect fun _ => ?_
  cases hflag : (f.exchange.closePort p).1 with
  | true =>
    refine ⟨_, _, [.closePort p], rfl,
      .one _ (.single _ rfl) (.close ?_) (fun ho => by cases ho) rfl
      ⟨rfl, rfl⟩⟩
    rw [hflag]
    exact decide_eq_true rfl
  | false =>
    refine ⟨_, _, [], rfl, .quiet _ rfl ?_⟩
    exact congrArg Exchange.core (Exchange.closePort_unopened hflag)

theorem livePost_of_post? (hm : m.post? = none) : f.livePost m = false := by
  rw [livePost, hm]
  rfl

theorem whileUp_quiet (hm : m.post? = none) {g : Exchange → Outcome Stage Reply}
    (hg : ∃ r st, g f.exchange = .returned r st ∧ st.exchange.core = f.exchange.core) :
    f.HasEffect m (f.turn (f.session.settle (f.session.stage.whileUp g) Session.replied)) := by
  obtain ⟨r, st, he, hcore⟩ := hg
  exact whileUp_effect fun _ => ⟨r, st, [], he, .quiet _ (livePost_of_post? hm) hcore⟩

theorem act_effect (a : Action) (h : (Step.act a : Step α ε).isElementary = true) :
    f.HasEffect (.step (.act a) h) (f.apply thread (.step (.act a) h)) := by
  have hquiet : ∀ {m : Move α ε} (a : Answer α ε) (st : Stage), m.post? = none →
      st.exchange.core = f.exchange.core → f.HasEffect m (a, f.onStage st) :=
    fun _ _ hm hcore => ⟨[], .quiet _ (livePost_of_post? hm) hcore⟩
  change f.HasEffect _ (f.turn (f.session.settle (f.session.stage.perform 0 none a) Session.replied))
  unfold Stage.perform Stage.run
  cases a with
  | own | native | invoke | drain => cases h
  | ownClosed | keep => exact hquiet _ f.session.stage rfl rfl
  | panic p => exact hquiet _ f.session.stage rfl rfl
  | nativeClosed k | nativeInfo k =>
    change f.HasEffect _ (f.turn (f.session.settle (Stage.withPort _ f.session.stage.kept[k]? _) _))
    cases f.session.stage.kept[k]? <;> exact hquiet _ f.session.stage rfl rfl
  | post p v => exact post_effect rfl
  | reverse message => exact post_effect rfl
  | closePort p => exact closePort_effect p h
  | shutdown =>
    refine whileUp_effect fun _ => ⟨.nothing, f.session.stage.put f.exchange.shutdown, [.shutdown],
      rfl, .one _ (.single _ rfl) (.shutdown rfl) (fun ho => by cases ho) ?_ ⟨rfl, rfl⟩⟩
    exact (livePost_of_post? rfl).symm
  | takeReverse =>
    refine whileUp_effect fun _ => ⟨_, f.session.stage.put f.exchange.takeReverse.2,
      [.receive Exchange.reversePort], rfl, .one _ (.single _ rfl) (.reverse rfl)
      (fun ho => by cases ho) ?_ ⟨rfl, rfl⟩⟩
    exact (livePost_of_post? rfl).symm
  | notify =>
    refine whileUp_quiet rfl ?_
    rw [Stage.notify]
    split
    · exact ⟨_, _, rfl, rfl⟩
    · exact ⟨_, _, rfl, rfl⟩
  | isOpen | portName | register | unregister | callbackCount | counters =>
    exact whileUp_quiet rfl ⟨_, _, rfl, rfl⟩

end Actions

section Append

theorem append_single (f : Floor α ε) (k : Ticket) (st : Stage) :
    Swap ⟨.singles, (f.table .singles).length⟩ (some (.single k)) f { f with
      session := { f.session with stage := st, tickets := f.session.tickets ++ [some k] } } :=
  .of_append List.map_append (by intro s hs; cases s <;> first | rfl | exact absurd rfl hs)

theorem append_broadcast (f : Floor α ε) (b : Exchange.Broadcast) (st : Stage) :
    Swap ⟨.broadcasts, (f.table .broadcasts).length⟩ (some (.broadcast b)) f { f with
      session := { f.session with stage := st, broadcasts := f.session.broadcasts ++ [some b] } } :=
  .of_append List.map_append (by intro s hs; cases s <;> first | rfl | exact absurd rfl hs)

theorem append_deferred (f : Floor α ε) (d : Deferred α ε) (st : Stage) :
    Swap ⟨.deferreds, (f.table .deferreds).length⟩ (some (.deferred d)) f { f with
      session := { f.session with stage := st, deferreds := f.session.deferreds ++ [some d] } } :=
  .of_append List.map_append (by intro s hs; cases s <;> first | rfl | exact absurd rfl hs)

theorem append_stream (f : Floor α ε) (c : Stream α ε) (st : Stage) :
    Swap ⟨.streams, (f.table .streams).length⟩ (some (.stream c)) f { f with
      session := { f.session with stage := st, streams := f.session.streams ++ [some c] } } :=
  .of_append List.map_append (by intro s hs; cases s <;> first | rfl | exact absurd rfl hs)

theorem append_running (f : Floor α ε) (r : Running α ε) (st : Stage) :
    Swap ⟨.running, (f.table .running).length⟩ (some (.running r)) f ((f.onStage st).launch r) :=
  .of_append List.map_append (by intro s hs; cases s <;> first | rfl | exact absurd rfl hs)

theorem swap_running {i : Nat} {r : Running α ε} (h : f.running[i]?.join = some r) (st : Stage) :
    Swap ⟨.running, i⟩ none f { f.onStage st with running := f.running.set i none } :=
  .of_set (lt_of_handle? (handle?_running h)) List.map_set
    (by intro s hs; cases s <;> first | rfl | exact absurd rfl hs)

end Append

section Opening

variable {x : Exchange}

theorem refused_effect {o : Op} (ho : o.opens = true) (hm : m.opensPort = true)
    (hpost : m.post? = none) (hx : x.core = (o.exec f.exchange).core) (a : Answer α ε) :
    f.HasEffect m (a, f.put x) := by
  refine ⟨[o], .one (f.session.stage.put x) (.single o hx) (.opening hm ho) (fun _ => hm) ?_ ?_⟩
  · rw [livePost_of_post? hpost]
    cases o <;> first | rfl | cases ho
  · cases o <;> first | exact ⟨rfl, rfl⟩ | cases ho

theorem opening_allowed {o : Op} (ho : o.opens = true) (hm : m.opensPort = true) {a : Answer α ε} :
    ∀ o' ∈ [o], f.Allows m a o' := by
  intro o' ho'
  rw [List.mem_singleton.1 ho']
  exact .opening hm ho

theorem openSingle_effect (h : (Step.openSingle : Step α ε).isElementary = true) :
    f.HasEffect (.step .openSingle h) (f.apply thread (.step .openSingle h)) := by
  change f.HasEffect _ (f.turn (f.session.withDispatcher _))
  unfold Session.withDispatcher
  split
  · rw [session_exchange]
    dsimp only
    cases hres : f.exchange.openSingle.1 with
    | error e =>
      change f.HasEffect (.step .openSingle h) (_, f.put f.exchange.openSingle.2)
      exact refused_effect (o := .openSingle) rfl rfl rfl rfl _
    | ok b =>
      obtain ⟨p, k⟩ := b
      obtain ⟨-, hk, -, r, -, hlength, hx⟩ := Exchange.openSingle_ok hres
      have hswap := append_single f k (f.session.stage.put f.exchange.openSingle.2 |>.keep p).2
      refine ⟨[.openSingle], .of_opened hswap (f.handle?_end _) ?_ ⟨?_, ?_, ?_⟩ ?_
        (.single _ rfl) (opening_allowed rfl rfl) (Nat.le_refl 1) rfl rfl rfl (Nat.zero_le _)⟩
      · simp
      · intro q hq
        cases hq
      · intro j hj
        cases hj
        refine ⟨hk, Eq.trans ?_ hlength⟩
        exact congrArg (fun y : Exchange => y.pending.slots.length) hx
      · intro q hq
        cases hq
      · intro hc
        cases hc
  · exact ⟨[], .quiet _ (livePost_of_post? rfl) rfl⟩

theorem openBroadcast_effect (task : String)
    (h : (Step.openBroadcast task : Step α ε).isElementary = true) :
    f.HasEffect (.step (.openBroadcast task) h) (f.apply thread (.step (.openBroadcast task) h)) := by
  change f.HasEffect _ (f.turn (f.session.withDispatcher _))
  unfold Session.withDispatcher
  split
  · rw [session_exchange]
    dsimp only
    cases hres : (f.exchange.openBroadcast task).1 with
    | error e =>
      change f.HasEffect (.step (.openBroadcast task) h) (_, f.put (f.exchange.openBroadcast task).2)
      exact refused_effect (o := .openBroadcast task) rfl rfl rfl rfl _
    | ok b =>
      obtain ⟨hid, -, hcore⟩ := Exchange.openBroadcast_ok hres
      have hswap := append_broadcast f b
        (f.session.stage.put (f.exchange.openBroadcast task).2 |>.keep b.id).2
      refine ⟨[.openBroadcast task], .of_opened hswap (f.handle?_end _) ?_ ⟨?_, ?_, ?_⟩ ?_
        (.single _ rfl) (opening_allowed rfl rfl) (Nat.le_refl 1) rfl rfl rfl (Nat.zero_le _)⟩
      · simp
      · intro q hq
        cases hq
        exact ⟨rfl, hid, congrArg Exchange.Core.nextPort hcore⟩
      · intro j hj
        cases hj
      · intro q hq _
        cases hq
        exact Exchange.hasInbox_openBroadcast hres rfl
      · intro hc
        cases hc
  · exact ⟨[], .quiet _ (livePost_of_post? rfl) rfl⟩

end Opening

section Calls

theorem beginAsync_effect (task : String) (codec : Codec α ε) :
    f.HasEffect (.beginAsync task codec) (f.apply thread (.beginAsync task codec)) := by
  change f.HasEffect _ (f.begin _ _ _)
  unfold Floor.begin
  split
  · rename_i hdisp
    cases hres : f.exchange.openSingle.1 with
    | error e =>
      rw [Exchange.beginAsync_error task hres]
      exact refused_effect (o := .openSingle) rfl rfl rfl rfl _
    | ok b =>
      obtain ⟨p, k⟩ := b
      obtain ⟨hp, hk, -, r, -, hlength, hy⟩ := Exchange.openSingle_ok hres
      obtain ⟨x, hx, hbegin⟩ := Exchange.beginAsync_ok task hres
      rw [hbegin]
      have hswap := append_running f (.async task codec p k) (f.session.stage.put x)
      refine ⟨[.openSingle], .of_opened hswap (f.handle?_end _) ?_ ⟨?_, ?_, ?_⟩ ?_
        (.single _ hx) (opening_allowed rfl rfl) (Nat.le_refl 1) rfl rfl rfl (Nat.zero_le _)⟩
      · simp
      · intro q hq
        cases hq
        refine ⟨rfl, hp, (Exchange.nextPort_congr hx).trans ?_⟩
        exact congrArg Exchange.nextPort hy
      · intro j hj
        cases hj
        refine ⟨hk, Eq.trans ?_ hlength⟩
        change x.pending.slots.length = _
        rw [Exchange.pending_congr hx, hy]
      · intro q _ ht
        cases ht
      · intro _
        exact hdisp
  · exact ⟨[], .quiet _ (livePost_of_post? rfl) rfl⟩

theorem beginStream_effect (task : String) (codec : Codec α ε) :
    f.HasEffect (.beginStream task codec) (f.apply thread (.beginStream task codec)) := by
  change f.HasEffect _ (f.begin _ _ _)
  unfold Floor.begin
  split
  · rename_i hdisp
    cases hres : (f.exchange.openBroadcast task).1 with
    | error e =>
      rw [Exchange.beginStream_error task hres]
      exact refused_effect (o := .openBroadcast task) rfl rfl rfl rfl _
    | ok b =>
      obtain ⟨hid, -, hcore⟩ := Exchange.openBroadcast_ok hres
      obtain ⟨x, hx, hbegin⟩ := Exchange.beginStream_ok task hres
      rw [hbegin]
      have hswap := append_running f (.stream task codec b) (f.session.stage.put x.hold)
      refine ⟨[.openBroadcast task, .hold], .of_opened hswap (f.handle?_end _) ?_ ⟨?_, ?_, ?_⟩ ?_
        (.exec rfl (.exec hx (.quiet rfl))) ?_ (Nat.le_refl 1) rfl rfl rfl (Nat.le_refl 1)⟩
      · simp
      · intro q hq
        cases hq
        exact ⟨rfl, hid, (Exchange.nextPort_congr hx).trans (congrArg Exchange.Core.nextPort hcore)⟩
      · intro j hj
        cases hj
      · intro q hq _
        cases hq
        change x.hasInbox b.id = true
        exact Exchange.hasInbox_openBroadcast hres hx
      · intro _
        exact hdisp
      · intro o ho
        simp only [List.mem_cons, List.not_mem_nil, or_false] at ho
        rcases ho with rfl | rfl
        · exact .opening rfl rfl
        · exact .hold
  · exact ⟨[], .quiet _ (livePost_of_post? rfl) rfl⟩

theorem launch_effect {r : Running α ε} (st : Stage) (hpost : m.post? = none)
    (hport : (Handle.running r).port? = none) (hticket : (Handle.running r).ticket? = none)
    (howns : (Handle.running r).owns = 0) (hcall : (Handle.running r).isCall = false)
    (hst : st.exchange.core = f.exchange.core) (a : Answer α ε) :
    f.HasEffect m (a, (f.onStage st).launch r) := by
  refine ⟨[], .of_opened (append_running f r st) (f.handle?_end _) ?_ ⟨?_, ?_, ?_⟩ ?_
    (.quiet hst) (by simp) (Nat.zero_le _) ?_ rfl howns (Nat.zero_le _)⟩
  · simp
  · intro p hp
    rw [hport] at hp
    cases hp
  · intro k hk
    rw [hticket] at hk
    cases hk
  · intro p hp
    rw [hport] at hp
    cases hp
  · intro hc
    rw [hcall] at hc
    cases hc
  · rw [livePost_of_post? hpost]
    rfl

theorem beginSync_effect (task : String) (codec : Codec α ε) :
    f.HasEffect (.beginSync task codec) (f.apply thread (.beginSync task codec)) := by
  change f.HasEffect _ (if f.session.dispatcher then _ else _)
  split
  · exact launch_effect (f.session.stage.put f.exchange.beginSync) rfl rfl rfl rfl rfl rfl _
  · exact ⟨[], .quiet _ (livePost_of_post? rfl) rfl⟩

theorem beginCallback_effect (message : Value) :
    f.HasEffect (.beginCallback message) (f.apply thread (.beginCallback message)) := by
  change f.HasEffect _ (f.beginCallback message)
  unfold Floor.beginCallback
  dsimp only
  split
  · exact ⟨[], .quiet _ (livePost_of_post? rfl) rfl⟩
  · split
    · exact ⟨[], .quiet _ (livePost_of_post? rfl) rfl⟩
    · rename_i call _
      have hlaunch := launch_effect (f := f) (m := .beginCallback message) (r := .callback)
        (f.session.stage.see (.call call.callable.body.label call.args)) rfl rfl rfl rfl rfl rfl
      exact hlaunch _

theorem over_effect {i : Nat} {r : Running α ε} (st : Stage) {ended : Except Panic Buffer}
    (hr : f.running[i]?.join = some r) (howns : (Handle.running r).owns = 0)
    (hst : st.exchange.core = f.exchange.core) (a : Answer α ε) :
    f.HasEffect (.finish i ended) (a, { f.onStage st with running := f.running.set i none }) :=
  ⟨[], .of_used rfl (handle?_running hr) (swap_running hr st) (by simp) (by simp) (.quiet hst)
    (by simp) (by rw [howns]; rfl) (Nat.zero_le _)⟩

theorem handOver_deferred {i : Nat} {r : Running α ε} {d : Deferred α ε} {y : Exchange}
    (ops : List Op) {ended : Except Panic Buffer} (hr : f.running[i]?.join = some r)
    (hfrom : (Handle.deferred d).From (.running r)) (hy : Runs ops f.exchange y)
    (ho : ∀ o ∈ ops, Through (.running r) o ∨ o = .hold)
    (hb : d.holds.toNat + ops.countP Op.isRelease =
      (Handle.running r).owns + ops.countP Op.isHold)
    (hsingle : ops.countP Op.isRelease + ops.countP Op.isHold ≤ 1) (a : Answer α ε) :
    f.HasEffect (.finish i ended) (a, { f with
      session := { f.session.put y with deferreds := f.session.deferreds ++ [some d] }
      running := f.running.set i none }) := by
  have hswap := swap_running hr (f.session.stage.put y)
  have happend := append_deferred { f.onStage (f.session.stage.put y) with
    running := f.running.set i none } d (f.session.stage.put y)
  exact ⟨ops, .of_passed rfl (handle?_running hr) hswap (handle?_end _ _) happend
    ⟨by simp, by simp⟩ hfrom hy ho hb hsingle⟩

theorem handOver_stream {i : Nat} {r : Running α ε} {c : Stream α ε} {y : Exchange}
    (ops : List Op) {ended : Except Panic Buffer} (hr : f.running[i]?.join = some r)
    (hfrom : (Handle.stream c).From (.running r)) (hy : Runs ops f.exchange y)
    (ho : ∀ o ∈ ops, Through (.running r) o ∨ o = .hold)
    (hb : c.holds.toNat + ops.countP Op.isRelease =
      (Handle.running r).owns + ops.countP Op.isHold)
    (hsingle : ops.countP Op.isRelease + ops.countP Op.isHold ≤ 1) (a : Answer α ε) :
    f.HasEffect (.finish i ended) (a, { f with
      session := { f.session.put y with streams := f.session.streams ++ [some c] }
      running := f.running.set i none }) := by
  have hswap := swap_running hr (f.session.stage.put y)
  have happend := append_stream { f.onStage (f.session.stage.put y) with
    running := f.running.set i none } c (f.session.stage.put y)
  exact ⟨ops, .of_passed rfl (handle?_running hr) hswap (handle?_end _ _) happend
    ⟨by simp, by simp⟩ hfrom hy ho hb hsingle⟩

theorem finishAsync_effect {i : Nat} {task : String} {codec : Codec α ε} {p : PortId} {k : Ticket}
    (hr : f.running[i]?.join = some (.async task codec p k)) (ended : Except Panic Buffer) :
    f.HasEffect (.finish i ended) ({ f with running := f.running.set i none }.turn
      (conclude thread (.async task codec p k) ended f.session)) := by
  cases ended with
  | ok b =>
    refine handOver_deferred [.hold] hr ?_ (.single _ rfl) ?_ rfl (Nat.le_refl 1) _
    · exact ⟨fun q hq => hq, fun j hj => hj, fun hc => absurd hc Bool.false_ne_true,
        fun _ _ ht => absurd ht Bool.false_ne_true⟩
    · intro o ho
      exact .inr (List.mem_singleton.1 ho)
  | error panic =>
    refine handOver_deferred [.closePort p]
      (y := (f.exchange.closePort p).2.note (.aborted (.observed thread task panic.message)))
      hr ?_ (.single _ rfl) ?_ ?_ (Nat.zero_le _) _
    · exact Handle.from_failed rfl _
    · intro o ho
      rw [List.mem_singleton.1 ho]
      exact .inl (.inl ⟨p, rfl, rfl⟩)
    · rfl

theorem finishStream_effect {i : Nat} {task : String} {codec : Codec α ε}
    {port : Exchange.Broadcast}
    (hr : f.running[i]?.join = some (.stream task codec port)) (ended : Except Panic Buffer) :
    f.HasEffect (.finish i ended) ({ f with running := f.running.set i none }.turn
      (conclude thread (.stream task codec port) ended f.session)) := by
  cases ended with
  | ok b =>
    exact handOver_stream [] hr (Handle.from_stream rfl rfl) (.quiet rfl) (by simp) rfl (Nat.zero_le _) _
  | error panic =>
    refine handOver_stream [.closeBroadcast port, .release] hr (Handle.from_stream rfl rfl)
      (.exec (y := f.exchange.note (.aborted (.observed thread port.name panic.message))) rfl
        (.single _ rfl)) ?_ rfl (Nat.le_refl 1) _
    intro o ho
    simp only [List.mem_cons, List.not_mem_nil, or_false] at ho
    rcases ho with rfl | rfl
    · exact .inl (.inl ⟨port.id, rfl, rfl, rfl⟩)
    · exact .inl (.inr (.inr rfl))

theorem finish_effect (i : Nat) (ended : Except Panic Buffer) :
    f.HasEffect (.finish i ended) (f.apply thread (.finish i ended)) := by
  change f.HasEffect _ (f.finish thread i ended)
  unfold Floor.finish
  cases hr : f.running[i]?.join with
  | none => exact ⟨[], .quiet _ (livePost_of_post? rfl) rfl⟩
  | some r =>
    cases r with
    | async task codec p k => exact finishAsync_effect hr ended
    | stream task codec port => exact finishStream_effect hr ended
    | sync task codec =>
      exact over_effect _ hr rfl (Reader.core_ofEntry ⟨task, thread⟩ codec ended f.exchange) _
    | callback =>
      cases ended with
      | ok b => exact over_effect (f.session.stage.put (f.exchange.record .callbackInvoked)) hr rfl rfl _
      | error p => exact over_effect (f.session.stage) hr rfl rfl _

end Calls

theorem letGo_effect (h : (Step.dropDispatcher : Step α ε).isElementary = true)
    (hdisp : f.session.dispatcher = true) (hidle : f.isBusy = false) :
    f.HasEffect (.step .dropDispatcher h) (.reply .nothing, { f with
      session := { f.session.put f.session.exchange.release with dispatcher := false } }) := by
  have hswap := swap_dispatcher f f.session.exchange.release
  have hclaims := hswap.claims
  rw [handle?_dispatcher hdisp] at hclaims
  refine ⟨[.release], .single _ rfl, ?_, Nat.zero_le _, ?_, ?_, ?_, hclaims, Nat.le_refl 1, ?_⟩
  · intro o ho
    rw [List.mem_singleton.1 ho]
    exact .release
  · rw [livePost_of_post? rfl]
    rfl
  · intro q h' hne hq'
    rw [hswap.elsewhere fun he => hne (by rw [he]; rfl)]
    exact hq'
  · intro q h' hq'
    obtain hnone | ⟨-, hold⟩ := hswap.origin hq'
    · cases hnone
    · exact .inl hold
  · -- no code runs, and so no call does
    intro _ q h' hq' hcall
    obtain ⟨-, r, hr⟩ := running_of_handle? hq' hcall
    refine absurd ?_ (Bool.eq_false_iff.1 hidle)
    rw [isBusy, List.any_eq_true]
    exact ⟨some r, List.mem_of_getElem? (Option.join_eq_some_iff.1 hr), rfl⟩

theorem dropDispatcher_effect (h : (Step.dropDispatcher : Step α ε).isElementary = true) :
    f.HasEffect (.step .dropDispatcher h) (f.apply thread (.step .dropDispatcher h)) := by
  change f.HasEffect _ (if f.isBusy then _ else f.turn (f.session.withDispatcher _))
  split
  · exact ⟨[], .quiet _ (livePost_of_post? rfl) rfl⟩
  · rename_i hbusy
    unfold Session.withDispatcher
    split
    · rename_i hdisp
      exact letGo_effect h hdisp (Bool.eq_false_iff.2 hbusy)
    · exact ⟨[], .quiet _ (livePost_of_post? rfl) rfl⟩

theorem shutdownDispatcher_effect (h : (Step.shutdownDispatcher : Step α ε).isElementary = true) :
    f.HasEffect (.step .shutdownDispatcher h) (f.apply thread (.step .shutdownDispatcher h)) := by
  change f.HasEffect _ (f.turn (f.session.withDispatcher _))
  unfold Session.withDispatcher
  split
  · refine ⟨[.shutdown], .one (f.session.stage.put (f.exchange.note _).shutdown)
      (.exec (y := f.exchange.note _) rfl (.quiet rfl)) (.shutdown rfl) (fun ho => by cases ho) ?_
      ⟨rfl, rfl⟩⟩
    exact (livePost_of_post? rfl).symm
  · exact ⟨[], .quiet _ (livePost_of_post? rfl) rfl⟩

theorem withDispatcher_quiet (hm : m.post? = none) {g : Exchange → Session.Turn α ε}
    (hg : f.session.dispatcher = true → ∃ a st, f.turn (g f.exchange) = (a, f.onStage st) ∧
      st.exchange.core = f.exchange.core) :
    f.HasEffect m (f.turn (f.session.withDispatcher g)) := by
  unfold Session.withDispatcher
  split
  · rename_i hdisp
    obtain ⟨a, st, hst, hcore⟩ := hg hdisp
    rw [session_exchange, hst]
    exact ⟨[], .quiet _ (livePost_of_post? hm) hcore⟩
  · exact ⟨[], .quiet _ (livePost_of_post? hm) rfl⟩

theorem withHandle_quiet {η : Type} {handles : List (Option η)} {n : Nat} (hm : m.post? = none)
    {g : η → Session.Turn α ε} (hg : ∀ e, ∃ a, g e = (a, f.session)) :
    f.HasEffect m (f.turn (f.session.withHandle handles n g)) := by
  unfold Session.withHandle
  split
  · rename_i e _
    obtain ⟨a, ha⟩ := hg e
    rw [ha]
    exact ⟨[], .quiet _ (livePost_of_post? hm) rfl⟩
  · exact ⟨[], .quiet _ (livePost_of_post? hm) rfl⟩

theorem withNotifier_quiet (hm : m.post? = none) (g : Notifier → Bool × Notifier) :
    f.HasEffect m (f.turn (f.session.withNotifier g)) := by
  unfold Session.withNotifier
  dsimp only
  split
  · exact ⟨[], .quiet _ (livePost_of_post? hm) rfl⟩
  · exact ⟨[], .quiet (f.session.stage.put _) (livePost_of_post? hm) rfl⟩

theorem step_effect (howned : f.session.dispatcher = true → 1 ≤ f.exchange.owners)
    (st : Step α ε) (h : st.isElementary = true) :
    f.HasEffect (.step st h) (f.apply thread (.step st h)) := by
  cases st with
  | act a => exact act_effect a h
  | callAsync | callStream | callSync | collect | pump | pumpOnce | threads => cases h
  | ready n => exact withHandle_quiet rfl fun d => ⟨_, rfl⟩
  | deferredText n => exact withHandle_quiet rfl fun d => ⟨_, rfl⟩
  | tryTake n => exact readDeferred_effect Deferred.readsSlot_take rfl _
  | waitTimeout n t => exact readDeferred_effect (Deferred.readsSlot_takeWithin t) rfl _
  | poll n w => exact readDeferred_effect (Deferred.readsSlot_poll w) rfl _
  | wait n => exact waitDeferred_effect rfl
  | dropDeferred n => exact dropDeferred_effect rfl
  | next n => exact pullStream_effect Inbox.takes_receive rfl _
  | nextTimeout n t => exact pullStream_effect (Inbox.takes_receiveWithin t) rfl _
  | closeStream n => exact closeStream_effect rfl
  | streamInfo n => exact withHandle_quiet rfl fun c => ⟨_, rfl⟩
  | dropStream n => exact dropStream_effect rfl
  | openSingle => exact openSingle_effect h
  | readTicket n r => exact readTicket_effect rfl r
  | openBroadcast task => exact openBroadcast_effect task h
  | receive n => exact receiveBy_effect Inbox.takes_receive rfl _
  | tryReceive n => exact tryReceive_effect rfl
  | receiveWithin n t => exact receiveBy_effect (Inbox.takes_receiveWithin t) rfl _
  | closeBroadcast n => exact closeBroadcast_effect rfl
  | broadcastInfo n => exact withHandle_quiet rfl fun b => ⟨_, rfl⟩
  | dropBroadcast n => exact dropBroadcast_effect rfl
  | reverseHandle =>
    exact withDispatcher_quiet rfl fun _ =>
      ⟨_, (f.session.stage.keep Exchange.reversePort).2, rfl, rfl⟩
  | waitForDelivery t =>
    refine withDispatcher_quiet rfl fun _ => ?_
    unfold Exchange.waitForDelivery
    cases f.exchange.notifier.wait with
    | error e => exact ⟨_, f.session.stage, rfl, rfl⟩
    | ok r => exact ⟨_, f.session.stage.put _, rfl, rfl⟩
  | dispatcherText => exact withDispatcher_quiet rfl fun _ => ⟨_, f.session.stage, rfl, rfl⟩
  | dispatcherCounters => exact withDispatcher_quiet rfl fun _ => ⟨_, f.session.stage, rfl, rfl⟩
  | shutdownDispatcher => exact shutdownDispatcher_effect h
  | cloneDispatcher =>
    refine withDispatcher_quiet rfl fun hdisp => ⟨_, f.session.stage.put f.exchange.hold.release,
      rfl, ?_⟩
    have hheld : f.exchange.hold.release = f.exchange := by
      have := howned hdisp
      have hshared : 2 ≤ f.exchange.owners + 1 := by omega
      rw [Exchange.release_of_shared hshared]
      rfl
    exact congrArg Exchange.core hheld
  | dropDispatcher => exact dropDispatcher_effect h
  | breakNotifier => exact withNotifier_quiet rfl _
  | saturateNotifier => exact withNotifier_quiet rfl _

/-- Every move has an effect, as long as the dispatcher handle owns the exchange. -/
theorem apply_effect (thread : Option String)
    (howned : f.session.dispatcher = true → 1 ≤ f.exchange.owners) (m : Move α ε) :
    f.HasEffect m (f.apply thread m) := by
  cases m with
  | step st h => exact step_effect howned st h
  | deliver p v =>
    change f.HasEffect _ (f.turn (f.session.settle (f.session.stage.on (f.exchange.deliver p v) _) _))
    unfold Exchange.deliver
    split
    · rename_i hgone
      refine ⟨[], .quiet (f.session.stage.put _) ?_ rfl⟩
      rw [livePost, hgone]
      exact Bool.and_false _
    · rename_i hgone
      refine ⟨[.post p v], .one (f.session.stage.put _) (.single _ rfl) (.post rfl)
        (fun ho => by cases ho) ?_ ⟨rfl, rfl⟩⟩
      rw [livePost, (Bool.not_eq_true _).mp hgone]
      rfl
  | keep p => exact ⟨[], .quiet ((f.session.stage.keep p).2) (livePost_of_post? rfl) rfl⟩
  | see e => exact ⟨[], .quiet (f.session.stage.see e) (livePost_of_post? rfl) rfl⟩
  | announce task =>
    exact ⟨[], .quiet (f.session.stage.put _) (livePost_of_post? rfl) rfl⟩
  | beginAsync task codec => exact beginAsync_effect task codec
  | beginStream task codec => exact beginStream_effect task codec
  | beginSync task codec => exact beginSync_effect task codec
  | beginCallback message => exact beginCallback_effect message
  | finish i ended => exact finish_effect i ended

end Floor

end CallExchange
