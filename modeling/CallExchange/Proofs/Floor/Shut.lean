import CallExchange.Proofs.Exchange.Signals
import CallExchange.Proofs.Floor.Changes
import CallExchange.Proofs.Floor.Watch

set_option autoImplicit false

/-!
# Shutting down

What the move that shuts the exchange down leaves, whichever move that is, and what the moves after
it can still do: nothing is opened, and what is left is there until it is taken.
-/

namespace CallExchange

open Exchange (Shut Wanes)

variable {α ε : Type}

namespace Floor

variable {f f' : Floor α ε} {m : Move α ε} {ms : List (Move α ε)} {n : Nat} {p : PortId} {k : Ticket}
  {v : Value} {thread : Option String}

/-- Nothing is opened any more, and nothing is used up by trying. -/
theorem apply_opening_shut (thread : Option String) (hx : f.exchange.closed = true)
    (hm : m.opensPort = true) : f.apply thread m =
      (if f.session.dispatcher then .reply (.fault .closed) else .noDispatcher, f) := by
  have hsingle : f.exchange.openSingle = (.error .closed, f.exchange) := by
    rw [Exchange.openSingle, if_pos hx]
  have hbroadcast : ∀ task, f.exchange.openBroadcast task = (.error .closed, f.exchange) := by
    intro task
    rw [Exchange.openBroadcast, if_pos hx]
  unfold Move.opensPort at hm
  split at hm
  · rename_i task codec
    change f.begin _ _ _ = _
    unfold Floor.begin Exchange.beginAsync
    rw [hsingle]
    split <;> rfl
  · rename_i task codec
    change f.begin _ _ _ = _
    unfold Floor.begin Exchange.beginStream
    rw [hbroadcast]
    split <;> rfl
  · change f.turn (f.session.withDispatcher _) = _
    unfold Session.withDispatcher
    rw [session_exchange]
    dsimp only
    rw [hsingle]
    split <;> rfl
  · rename_i task _
    change f.turn (f.session.withDispatcher _) = _
    unfold Session.withDispatcher
    rw [session_exchange]
    dsimp only
    rw [hbroadcast]
    split <;> rfl
  · cases hm

/-- What each move that opens nothing does to a floor that is shut, every move does. -/
theorem apply_shut_cases {P : Floor α ε → Prop} (hs : f.Sound n) (hx : f.exchange.closed = true)
    (thread : Option String) (m : Move α ε) (hf : P f)
    (hstep : f.Sound (m.opensPort.toNat + n) → P (f.apply thread m).2) : P (f.apply thread m).2 := by
  cases hm : m.opensPort with
  | true =>
    rw [apply_opening_shut thread hx hm]
    exact hf
  | false =>
    refine hstep ?_
    rw [hm, Bool.toNat_false, Nat.zero_add]
    exact hs

theorem Sound.apply_shut (hs : f.Sound n) (hx : f.exchange.closed = true) (thread : Option String)
    (m : Move α ε) :
    (f.apply thread m).2.Sound n ∧ Wanes f.exchange (f.apply thread m).2.exchange := by
  have hshut : f.exchange.Shut := ⟨hs.consistent, hx⟩
  refine apply_shut_cases (P := fun g => g.Sound n ∧ Wanes f.exchange g.exchange) hs hx thread m
    ⟨hs, hshut.refl⟩ fun hs' => ⟨hs'.apply thread, ?_⟩
  obtain ⟨ops, he⟩ := hs'.effect thread m
  exact he.runs.wanes hshut (he.fit hs')

theorem apply_keeps_ready (hs : f.Sound n) (hx : f.exchange.closed = true) (thread : Option String)
    (hm : ¬ f.UsesSlot m k) (hk : f.exchange.slot k = .ready v) :
    (f.apply thread m).2.exchange.slot k = .ready v := by
  refine apply_shut_cases (P := fun g => g.exchange.slot k = .ready v) hs hx thread m hk fun hs' => ?_
  obtain ⟨ops, he⟩ := hs'.effect thread m
  exact he.runs.keeps_ready hs.consistent (he.fit hs')
    (fun o ho => (he.allowed o ho).sparesSlot hm) hk

theorem apply_keeps_inbox (hs : f.Sound n) (hx : f.exchange.closed = true) (thread : Option String)
    (hm : ¬ f.UsesInbox m p) : (f.apply thread m).2.exchange.inbox p = f.exchange.inbox p := by
  refine apply_shut_cases (P := fun g => g.exchange.inbox p = f.exchange.inbox p) hs hx thread m rfl
    fun hs' => ?_
  obtain ⟨ops, he⟩ := hs'.effect thread m
  exact he.runs.inbox_of_shut ⟨hs.consistent, hx⟩ (he.fit hs')
    fun o ho ht => hm ((he.allowed o ho).usesInbox ht)

def Avoids (P : Floor α ε → Move α ε → Prop) (thread : Option String) :
    List (Move α ε) → Floor α ε → Prop
  | [], _ => True
  | m :: ms, f => ¬ P f m ∧ Avoids P thread ms (f.apply thread m).2

theorem run_shut (hs : f.Sound n) (hx : f.exchange.closed = true) (thread : Option String)
    (ms : List (Move α ε)) :
    (run thread ms f).Sound n ∧ Wanes f.exchange (run thread ms f).exchange := by
  induction ms generalizing f with
  | nil => exact ⟨hs, Exchange.Shut.refl ⟨hs.consistent, hx⟩⟩
  | cons m ms ih =>
    obtain ⟨hs', hw⟩ := hs.apply_shut hx thread m
    obtain ⟨hsound, hw'⟩ := ih hs' hw.closed
    exact ⟨hsound, hw.trans hw'⟩

theorem run_keeps_ready (hs : f.Sound n) (hx : f.exchange.closed = true) (thread : Option String)
    (hms : Avoids (fun f m => f.UsesSlot m k) thread ms f) (hk : f.exchange.slot k = .ready v) :
    (run thread ms f).exchange.slot k = .ready v := by
  induction ms generalizing f with
  | nil => exact hk
  | cons m ms ih =>
    obtain ⟨hs', hw⟩ := hs.apply_shut hx thread m
    exact ih hs' hw.closed hms.2 (apply_keeps_ready hs hx thread hms.1 hk)

theorem run_keeps_inbox (hs : f.Sound n) (hx : f.exchange.closed = true) (thread : Option String)
    (hms : Avoids (fun f m => f.UsesInbox m p) thread ms f) :
    (run thread ms f).exchange.inbox p = f.exchange.inbox p := by
  induction ms generalizing f with
  | nil => rfl
  | cons m ms ih =>
    obtain ⟨hs', hw⟩ := hs.apply_shut hx thread m
    exact (ih hs' hw.closed hms.2).trans (apply_keeps_inbox hs hx thread hms.1)

/-- What a move leaves behind that shuts the exchange down, but for the handle that it uses. -/
structure TornDown (f : Floor α ε) (m : Move α ε) (y : Exchange) : Prop where
  abandoned : ∀ k, (f.exchange.slot k).isSettled = false → y.slot k = .abandoned
  ready : ∀ k v, f.exchange.slot k = .ready v → ¬ f.UsesSlot m k → y.slot k = .ready v
  inbox : ∀ p, ¬ f.UsesInbox m p → y.inbox p = ⟨(f.exchange.inbox p).queue, true⟩

theorem apply_post_closed (thread : Option String) (hm : m.post? = some (p, v))
    (hlive : f.exchange.isGone = false) :
    (f.apply thread m).2.exchange.closed = f.exchange.closed := by
  rw [apply_post thread hm hlive]
  have hsig := (f.exchange.post_posted p v).signals_eq
  split at hsig <;> exact congrArg Exchange.Signals.closed hsig

theorem tornDown_of_closed (hs : f.Sound n) (hx : f.exchange.closed = true) (thread : Option String)
    (m : Move α ε) : f.TornDown m (f.apply thread m).2.exchange where
  abandoned k hk := by
    rw [Exchange.Shut.settled ⟨hs.consistent, hx⟩ k] at hk
    cases hk
  ready k v hk hm := apply_keeps_ready hs hx thread hm hk
  inbox p hm := by
    rw [apply_keeps_inbox hs hx thread hm,
      ← Exchange.Shut.inbox_closed (x := f.exchange) ⟨hs.consistent, hx⟩ p]

/-- Whichever move it is after which the exchange is closed. -/
theorem tornDown_apply (hs : f.Sound (m.opensPort.toNat + n)) (thread : Option String)
    (hy : (f.apply thread m).2.exchange.closed = true) :
    f.TornDown m (f.apply thread m).2.exchange := by
  cases hx : f.exchange.closed with
  | true => exact tornDown_of_closed hs hx thread m
  | false =>
    have hquiet : f.livePost m = false := by
      refine (f.livePost_cases m).resolve_right ?_
      rintro ⟨p, v, hpost, hlive⟩
      rw [apply_post_closed thread hpost hlive, hx] at hy
      cases hy
    obtain ⟨ops, he⟩ := hs.effect thread m
    have hposts := he.no_posts hquiet
    have hshut : Shut (f.apply thread m).2.exchange := ⟨(hs.apply thread).consistent, hy⟩
    refine ⟨fun k hk => ?_, fun k v hk hm => ?_, fun p hm => ?_⟩
    · exact he.runs.abandons hs.consistent (he.fit hs) hposts hshut hk
    · exact he.runs.keeps_ready hs.consistent (he.fit hs)
        (fun o ho => (he.allowed o ho).sparesSlot hm) hk
    · have hqueue := he.runs.keeps_queue hs.consistent (he.fit hs) hposts
        fun o ho ht => hm ((he.allowed o ho).usesInbox ht)
      rw [← hqueue, ← hshut.inbox_closed p]

end Floor

end CallExchange
