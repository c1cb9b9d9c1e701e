import CallExchange.Proofs.Exchange.Signals
import CallExchange.Proofs.Floor.Frames

set_option autoImplicit false

/-!
# Signals of moves

Which moves ring, which register or forget a callback, and which wait. All others leave the
callbacks and the notifier alone, but for the one that shuts the exchange down.
-/

namespace CallExchange

open Exchange (Fades)

variable {α ε : Type}

theorem Exchange.frame_fades : Exchange.WideFrame Fades where
  refl _ := .calm rfl
  trans := .trans
  note _ _ := .calm rfl
  setInbox _ _ _ := .calm rfl
  closePort x p := .calm (x.signals_closePort p)
  close b x := .calm (b.signals_close x)
  release := Exchange.fades_release
  hold _ := .calm rfl
  record _ _ := .calm rfl
  use _ _ := .calm rfl

theorem Exchange.signals_beginAsync (x : Exchange) (task : String) :
    (x.beginAsync task).2.signals = x.signals := by
  have hopen := x.signals_openSingle
  unfold Exchange.beginAsync
  split <;> rename_i hs <;> rw [hs] at hopen <;> exact hopen

theorem Exchange.signals_beginStream (x : Exchange) (task : String) :
    (x.beginStream task).2.signals = x.signals := by
  have hopen := x.signals_openBroadcast task
  unfold Exchange.beginStream
  split <;> rename_i hs <;> rw [hs] at hopen <;> exact hopen

def Move.registered? : Move α ε × Answer α ε → Option (Callable Routine × Token)
  | (.step (.act (.register shape label body)) _, .reply (.token t)) =>
    some (⟨shape, label, body⟩, t)
  | _ => none

/-- Whether a move took the notifications that were pending, if any were. -/
def Move.waits : Move α ε × Answer α ε → Bool
  | (.step (.waitForDelivery _) _, .reply (.flag _)) => true
  | _ => false

/-- Whether a move may do something to the notifier that a client cannot do. -/
def Move.disturbs : Move α ε → Bool
  | .step .breakNotifier _ | .step .saturateNotifier _ => true
  | _ => false

def Answer.accepted : Answer α ε → Bool
  | .reply (.delivery d) => d != .dropped
  | _ => false

def Answer.refuses : Answer α ε → Bool
  | .reply .exchangeGone | .reply .noHandle | .noDispatcher => true
  | _ => false

def Move.notifies : Move α ε × Answer α ε → Bool
  | (.step (.act .notify) _, .reply .done) => true
  | _ => false

theorem Move.notifies_of_post? {m : Move α ε} (hm : m.post?.isSome = true) (a : Answer α ε) :
    Move.notifies (m, a) = false := by
  unfold Move.notifies
  split
  · rename_i he
    cases he
    cases hm
  · rfl

/-- Whether a move rings: a delivery that was accepted, or a notification. -/
def Move.rings (e : Move α ε × Answer α ε) : Bool :=
  e.1.post?.isSome && e.2.accepted || Move.notifies e

namespace Floor

/-- What a move does to the callbacks and the notifier. -/
inductive Sends (f : Floor α ε) (m : Move α ε) (t : Turn α ε) : Prop where
  | fades (hm : Move.rings (m, t.1) = false) (hw : Move.waits (m, t.1) = false)
      (hr : Move.registered? (m, t.1) = none) (h : Fades f.exchange t.2.exchange)
  | rings (hm : Move.rings (m, t.1) = true) (hr : Move.registered? (m, t.1) = none)
      (h : t.2.exchange.signals = f.exchange.signals.ring)
  | waited (b : Bool) (n : Notifier) (hm : Move.rings (m, t.1) = false)
      (hw : Move.waits (m, t.1) = true) (hr : Move.registered? (m, t.1) = none)
      (ha : t.1 = .reply (.flag b)) (hn : f.exchange.notifier.wait = .ok (b, n))
      (h : t.2.exchange.signals = { f.exchange.signals with notifier := n })
  | registered (c : Callable Routine) (hm : Move.rings (m, t.1) = false)
      (hr : Move.registered? (m, t.1) = some (c, f.exchange.callbacks.next))
      (h : t.2.exchange.signals =
        { f.exchange.signals with callbacks := (f.exchange.callbacks.register c).2 })
  | unregistered (s : Token) (hm : Move.rings (m, t.1) = false)
      (hr : Move.registered? (m, t.1) = none)
      (h : t.2.exchange.signals =
        { f.exchange.signals with callbacks := (f.exchange.callbacks.unregister s).2 })
      (hs : ∃ hst, m = .step (.act (.unregister s)) hst)
  | disturbed (hd : m.disturbs = true) (hm : Move.rings (m, t.1) = false)
      (hr : Move.registered? (m, t.1) = none) (g : Notifier → Bool × Notifier)
      (hg : g = Notifier.breakDescriptor ∨ g = Notifier.saturate)
      (h : t.2.exchange.signals =
        { f.exchange.signals with notifier := (g f.exchange.notifier).2 })

variable {f : Floor α ε} {m : Move α ε} {a : Answer α ε} {t : Turn α ε} {n : Nat}
  {thread : Option String}

theorem Move.silent_of_place? {q : Place} (hm : m.place? = some q) (a : Answer α ε) :
    Move.rings (m, a) = false ∧ Move.waits (m, a) = false ∧ Move.registered? (m, a) = none := by
  unfold Move.place? at hm
  split at hm
  case h_18 => cases hm
  all_goals exact ⟨rfl, rfl, rfl⟩

theorem Move.silent_of_refuses (m : Move α ε) (ha : a.refuses = true) :
    Move.rings (m, a) = false ∧ Move.waits (m, a) = false ∧ Move.registered? (m, a) = none := by
  have haccepted : a.accepted = false := by
    unfold Answer.accepted
    split
    · cases ha
    · rfl
  have hnotifies : Move.notifies (m, a) = false := by
    unfold Move.notifies
    split
    · rename_i he
      cases he
      cases ha
    · rfl
  refine ⟨?_, ?_, ?_⟩
  · rw [Move.rings, haccepted, hnotifies, Bool.and_false, Bool.or_false]
  · unfold Move.waits
    split
    · rename_i he
      cases he
      cases ha
    · rfl
  · unfold Move.registered?
    split
    · rename_i he
      cases he
      cases ha
    · rfl

namespace Sends

theorem of_place {q : Place} (hm : m.place? = some q) (h : Fades f.exchange t.2.exchange) :
    f.Sends m t := by
  obtain ⟨hrings, hwaits, hregistered⟩ := Move.silent_of_place? hm t.1
  exact .fades hrings hwaits hregistered h

theorem refused (ha : a.refuses = true) : f.Sends m (a, f) := by
  obtain ⟨hrings, hwaits, hregistered⟩ := Move.silent_of_refuses m ha
  exact .fades hrings hwaits hregistered (.calm rfl)

theorem quiet (h : t.2.exchange.signals = f.exchange.signals)
    (hm : Move.rings (m, t.1) = false := by rfl) (hw : Move.waits (m, t.1) = false := by rfl)
    (hr : Move.registered? (m, t.1) = none := by rfl) : f.Sends m t := .fades hm hw hr (.calm h)

end Sends

theorem sends_whileUp {g : Exchange → Outcome Stage Reply}
    (hlive : ∃ r st, g f.exchange = .returned r st ∧ f.Sends m (.reply r, f.onStage st)) :
    f.Sends m (f.turn (f.session.settle (f.session.stage.whileUp g) Session.replied)) := by
  obtain ⟨r, st, hg, hsends⟩ := hlive
  rw [Stage.whileUp]
  split
  · exact .refused rfl
  · rw [show g f.session.stage.exchange = .returned r st from hg]
    exact hsends

theorem sends_post (p : PortId) (v : Value) (hm : m.post?.isSome = true)
    (hr : ∀ d, Move.registered? (m, (.reply (.delivery d) : Answer α ε)) = none)
    (hw : ∀ d, Move.waits (m, (.reply (.delivery d) : Answer α ε)) = false) :
    f.Sends m (.reply (.delivery (f.exchange.post p v).1), f.put (f.exchange.post p v).2) := by
  have hsig := (f.exchange.post_posted p v).signals_eq
  have hrings : Move.rings (m, (.reply (.delivery (f.exchange.post p v).1) : Answer α ε)) =
      ((f.exchange.post p v).1 != .dropped) := by
    rw [Move.rings, Move.notifies_of_post? hm, Bool.or_false]
    dsimp only
    rw [hm, Bool.true_and, Answer.accepted]
  split at hsig
  · rename_i hd
    refine .fades ?_ (hw _) (hr _) (.calm hsig)
    rw [hrings, hd]
    rfl
  · rename_i hd
    refine .rings ?_ (hr _) hsig
    rw [hrings]
    simpa using hd

theorem sends_notify (h : (Step.act .notify : Step α ε).isElementary = true) :
    f.Sends (.step (.act .notify) h) (f.turn (f.session.settle
      (f.session.stage.whileUp fun _ => f.session.stage.notify) Session.replied)) := by
  refine sends_whileUp ?_
  rw [Stage.notify, show f.session.stage.exchange = f.exchange from rfl]
  cases hn : f.exchange.notifier.notify with
  | ok n =>
    refine ⟨_, _, rfl, .rings rfl rfl ?_⟩
    rw [Exchange.Signals.ring, Notifier.notified,
      show f.exchange.signals.notifier.notify = .ok n from hn]
    rfl
  | error e => exact ⟨_, _, rfl, .quiet rfl⟩

theorem sends_act (a : Action) (h : (Step.act a : Step α ε).isElementary = true) :
    f.Sends (.step (.act a) h) (f.apply thread (.step (.act a) h)) := by
  change f.Sends _ (f.turn (f.session.settle (f.session.stage.perform 0 none a) Session.replied))
  unfold Stage.perform Stage.run
  cases a with
  | own | native | invoke | drain => cases h
  | ownClosed | keep | panic => exact .quiet rfl
  | nativeClosed k | nativeInfo k =>
    change f.Sends _ (f.turn (f.session.settle (Stage.withPort _ f.session.stage.kept[k]? _) _))
    cases f.session.stage.kept[k]? <;> exact .quiet rfl
  | post p v => exact sends_whileUp ⟨_, _, rfl, sends_post p v rfl (fun _ => rfl) fun _ => rfl⟩
  | reverse v => exact sends_whileUp ⟨_, _, rfl, sends_post _ v rfl (fun _ => rfl) fun _ => rfl⟩
  | shutdown =>
    exact sends_whileUp ⟨_, _, rfl, .fades rfl rfl rfl f.exchange.fades_shutdown⟩
  | closePort p =>
    exact sends_whileUp ⟨_, _, rfl, .quiet (f.exchange.signals_closePort p)⟩
  | register shape label body =>
    exact sends_whileUp ⟨_, _, rfl, .registered ⟨shape, label, body⟩ rfl rfl rfl⟩
  | unregister s => exact sends_whileUp ⟨_, _, rfl, .unregistered s rfl rfl rfl ⟨h, rfl⟩⟩
  | notify => exact sends_notify h
  | isOpen | portName | takeReverse | callbackCount | counters =>
    exact sends_whileUp ⟨_, _, rfl, .quiet rfl⟩

section Handles

theorem sends_withHandle {η : Type} {handles : List (Option η)} {i : Nat}
    {g : η → Session.Turn α ε} (h : ∀ e, handles[i]?.join = some e → f.Sends m (f.turn (g e))) :
    f.Sends m (f.turn (f.session.withHandle handles i g)) := by
  unfold Session.withHandle
  split
  · rename_i e he
    exact h e he
  · exact .refused rfl

theorem sends_withDispatcher {g : Exchange → Session.Turn α ε}
    (h : f.session.dispatcher = true → f.Sends m (f.turn (g f.exchange))) :
    f.Sends m (f.turn (f.session.withDispatcher g)) := by
  unfold Session.withDispatcher
  split
  · rename_i hd
    exact h hd
  · exact .refused rfl

theorem sends_place {q : Place} (hm : m.place? = some q) : f.Sends m (f.apply thread m) :=
  .of_place hm (Exchange.frame_fades.apply_place hm fun _ _ _ _ => .calm rfl)

end Handles

section Calls

theorem sends_begin {β : Type} {r : Except Fault β × Exchange} {port : β → PortId}
    {running : β → Running α ε} (hr : r.2.signals = f.exchange.signals)
    (hm : ∀ a, Move.rings (m, a) = false ∧ Move.waits (m, a) = false ∧
      Move.registered? (m, a) = none) : f.Sends m (f.begin r port running) := by
  unfold Floor.begin
  split
  · obtain ⟨e | b, x⟩ := r
    · exact .fades (hm _).1 (hm _).2.1 (hm _).2.2 (.calm hr)
    · exact .fades (hm _).1 (hm _).2.1 (hm _).2.2 (.calm hr)
  · exact .refused rfl

theorem sends_beginCallback (message : Value) :
    f.Sends (.beginCallback message) (f.beginCallback message) := by
  unfold Floor.beginCallback
  dsimp only
  split
  · exact .refused rfl
  · split <;> exact .quiet rfl

end Calls

theorem sends_withNotifier (hd : m.disturbs = true)
    (hm : ∀ a, Move.rings (m, a) = false) (hr : ∀ a, Move.registered? (m, a) = none)
    {g : Notifier → Bool × Notifier} (hg : g = Notifier.breakDescriptor ∨ g = Notifier.saturate) :
    f.Sends m (f.turn (f.session.withNotifier g)) := by
  unfold Session.withNotifier
  dsimp only
  split
  · exact .refused rfl
  · exact .disturbed hd (hm _) (hr _) g hg rfl

theorem sends_waitForDelivery (s : Span)
    (h : (Step.waitForDelivery s : Step α ε).isElementary = true) :
    f.Sends (.step (.waitForDelivery s) h) (f.apply thread (.step (.waitForDelivery s) h)) := by
  refine sends_withDispatcher fun _ => ?_
  unfold Exchange.waitForDelivery
  cases hn : f.exchange.notifier.wait with
  | error e => exact .quiet rfl
  | ok r => exact .waited r.1 r.2 rfl rfl rfl rfl hn rfl

theorem sends_step (st : Step α ε) (h : st.isElementary = true) :
    f.Sends (.step st h) (f.apply thread (.step st h)) := by
  cases st with
  | act a => exact sends_act a h
  | callAsync | callStream | callSync | collect | pump | pumpOnce | threads => cases h
  | ready | deferredText | streamInfo | broadcastInfo =>
    exact sends_withHandle fun _ _ => .quiet rfl
  | tryTake | waitTimeout | poll | wait | dropDeferred | next | nextTimeout | closeStream | dropStream
  | readTicket | receive | tryReceive | receiveWithin | closeBroadcast | dropBroadcast
  | dropDispatcher => exact sends_place rfl
  | openSingle =>
    refine sends_withDispatcher fun _ => ?_
    have hopen := f.exchange.signals_openSingle
    cases f.exchange.openSingle.1 <;> exact .quiet hopen
  | openBroadcast task =>
    refine sends_withDispatcher fun _ => ?_
    have hopen := f.exchange.signals_openBroadcast task
    cases (f.exchange.openBroadcast task).1 <;> exact .quiet hopen
  | reverseHandle | dispatcherText | dispatcherCounters =>
    exact sends_withDispatcher fun _ => .quiet rfl
  | waitForDelivery t => exact sends_waitForDelivery t h
  | shutdownDispatcher =>
    exact sends_withDispatcher fun _ => .fades rfl rfl rfl
      (.of_calm (y := f.exchange.note .shutdownRequested) rfl (Exchange.fades_shutdown _))
  | cloneDispatcher =>
    exact sends_withDispatcher fun _ => .fades rfl rfl rfl
      (.of_calm (y := f.exchange.hold) rfl (Exchange.fades_release _))
  | breakNotifier => exact sends_withNotifier rfl (fun _ => rfl) (fun _ => rfl) (.inl rfl)
  | saturateNotifier => exact sends_withNotifier rfl (fun _ => rfl) (fun _ => rfl) (.inr rfl)

theorem sends_apply (f : Floor α ε) (thread : Option String) (m : Move α ε) :
    f.Sends m (f.apply thread m) := by
  cases m with
  | step st h => exact sends_step st h
  | deliver p v =>
    change f.Sends _ (f.turn (f.session.settle (f.session.stage.on (f.exchange.deliver p v) _) _))
    unfold Exchange.deliver
    split
    · exact .quiet rfl
    · exact sends_post p v rfl (fun _ => rfl) fun _ => rfl
  | keep | see | announce => exact .quiet rfl
  | beginAsync task codec =>
    exact sends_begin (f.exchange.signals_beginAsync task) fun _ => ⟨rfl, rfl, rfl⟩
  | beginStream task codec =>
    exact sends_begin (f.exchange.signals_beginStream task) fun _ => ⟨rfl, rfl, rfl⟩
  | beginSync task codec =>
    change f.Sends _ (if f.session.dispatcher then _ else _)
    split
    · exact .quiet rfl
    · exact .refused rfl
  | beginCallback message => exact sends_beginCallback message
  | finish i ended => exact sends_place rfl

end Floor

end CallExchange
