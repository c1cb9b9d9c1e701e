import CallExchange.Proofs.Exchange.Opening

set_option autoImplicit false

/-!
# Callbacks and notifications

The other half of an exchange, besides its core: the callbacks, the notifier, and whether the
exchange is closed. Most operations leave all three alone. An accepted delivery rings, and the first
shutdown rings and forgets the callbacks.
-/

namespace CallExchange

namespace Exchange

structure Signals where
  callbacks : Callbacks Routine
  notifier : Notifier
  closed : Bool

def signals (x : Exchange) : Signals := ⟨x.callbacks, x.notifier, x.closed⟩

namespace Signals

def ring (s : Signals) : Signals := { s with notifier := s.notifier.notified.2 }

def down (s : Signals) : Signals := ⟨s.callbacks.clear, s.notifier.notified.2, true⟩

end Signals

variable {x y z : Exchange} {p : PortId}

section Congr

theorem callbacks_signals (h : y.signals = x.signals) : y.callbacks = x.callbacks :=
  congrArg Signals.callbacks h

theorem notifier_signals (h : y.signals = x.signals) : y.notifier = x.notifier :=
  congrArg Signals.notifier h

theorem closed_signals (h : y.signals = x.signals) : y.closed = x.closed :=
  congrArg Signals.closed h

end Congr

theorem signals_ring (x : Exchange) : x.ring.signals = x.signals.ring := by
  unfold ring Signals.ring Notifier.notified
  change _ = (⟨x.callbacks, _, x.closed⟩ : Signals)
  rw [show x.signals.notifier = x.notifier from rfl]
  cases x.notifier.notify <;> rfl

theorem OpenedSingle.signals_eq {a : Except Fault (PortId × Ticket)} (ho : OpenedSingle x a y) :
    y.signals = x.signals := by
  cases ho <;> rfl

theorem signals_openSingle (x : Exchange) : x.openSingle.2.signals = x.signals :=
  x.openSingle_opened.signals_eq

theorem signals_openBroadcast (x : Exchange) (task : String) :
    (x.openBroadcast task).2.signals = x.signals := by
  unfold openBroadcast
  split <;> rfl

theorem signals_drop (x : Exchange) (p : PortId) (why : DropReason) :
    (x.drop p why).signals = x.signals := by
  unfold drop
  dsimp only
  split <;> rfl

theorem Posted.signals_eq {v : Value} {d : Delivery} (hp : Posted x p v d y) :
    y.signals = if d = .dropped then x.signals else x.signals.ring := by
  cases hp with
  | completed w r hx hr => exact signals_ring _
  | queued hx ht hn hb => exact signals_ring _
  | dropped why hd => exact signals_drop x p why

theorem signals_closeBroadcast (x : Exchange) (p : PortId) :
    (x.closeBroadcast p).2.signals = x.signals := by
  unfold closeBroadcast
  split <;> rfl

theorem signals_cancelPending (x : Exchange) (p : PortId) :
    (x.cancelPending p).2.signals = x.signals := by
  unfold cancelPending
  split <;> rfl

theorem signals_closePort (x : Exchange) (p : PortId) : (x.closePort p).2.signals = x.signals := by
  by_cases hp : p = reversePort
  · rw [hp]
    rfl
  · rw [x.closePort_snd hp, signals_cancelPending, signals_closeBroadcast]

theorem Broadcast.signals_close (b : Broadcast) (x : Exchange) :
    (b.close x).2.signals = x.signals := by
  unfold Broadcast.close
  dsimp only
  split
  · split <;> rfl
  · have hport := (x.setInbox b.id (x.inbox b.id).close.2).signals_closePort b.id
    split <;> exact hport

theorem signals_closeInboxes (x : Exchange) (ps : List PortId) :
    (x.closeInboxes ps).signals = x.signals := by
  induction ps generalizing x with
  | nil => rfl
  | cons p ps ih => exact ih (x.closeInbox p)

inductive Fades (x y : Exchange) : Prop where
  | calm (h : y.signals = x.signals)
  | down (hx : x.closed = false) (h : y.signals = x.signals.down)

namespace Fades

theorem of_calm (h : y.signals = x.signals) (hf : Fades y z) : Fades x z := by
  cases hf with
  | calm hz => exact .calm (hz.trans h)
  | down hy hz => exact .down ((closed_signals h).symm.trans hy) (by rw [hz, h])

theorem then_calm (hf : Fades x y) (h : z.signals = y.signals) : Fades x z := by
  cases hf with
  | calm hy => exact .calm (h.trans hy)
  | down hx hy => exact .down hx (h.trans hy)

theorem trans (h : Fades x y) (h' : Fades y z) : Fades x z := by
  cases h' with
  | calm hz => exact h.then_calm hz
  | down hy hz =>
    cases h with
    | calm hx => exact .of_calm hx (.down hy hz)
    | down _ hx =>
      have hclosed : y.closed = true := congrArg Signals.closed hx
      rw [hy] at hclosed
      cases hclosed

end Fades

theorem signals_shutdown (h : x.closed = false) : x.shutdown.signals = x.signals.down := by
  rw [shutdown, if_neg (by rw [h]; exact Bool.false_ne_true)]
  dsimp only
  have hrung : ∀ y : Exchange, y.callbacks = x.callbacks.clear → y.notifier = x.notifier →
      y.closed = true → (y.ring.note (.exchangeDown x.pending.size x.ports.length)).signals =
        x.signals.down := by
    intro y hc hn hx
    change y.ring.signals = _
    rw [signals_ring, Signals.ring, Signals.down, signals, hc, hn, hx]
    rfl
  have hinboxes := signals_closeInboxes
    ({ x with closed := true, pending := x.pending.abandonAll.2 }.wake x.pending.abandonAll.1)
    (x.ports.map Prod.fst)
  exact hrung _ (congrArg (fun s => s.callbacks.clear) hinboxes) (congrArg Signals.notifier hinboxes)
    (congrArg Signals.closed hinboxes)

theorem fades_shutdown (x : Exchange) : Fades x x.shutdown := by
  cases hx : x.closed with
  | true => exact .calm (by rw [shutdown_of_closed hx])
  | false => exact .down hx (signals_shutdown hx)

theorem fades_release (x : Exchange) : Fades x x.release := by
  unfold release
  split
  · exact .calm rfl
  · exact x.fades_shutdown.then_calm rfl
  · exact .calm rfl

end Exchange

end CallExchange
