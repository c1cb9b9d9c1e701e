import CallExchange.Proofs.Floor.Tickets

set_option autoImplicit false

/-!
# Last pollers

Whoever polled a pending call last is woken when the call is settled, in whichever way that happens,
and nobody else ever is. The first settlement decides what the reads find, and one of them takes it.
-/

namespace CallExchange

open OneShot (Act Behaves Deed deeds due)
open Pending (only)

variable {α ε : Type}

namespace Exchange

variable {x : Exchange}

def Wakes (history : Ticket → List (Deed Value)) (s : PortId → Option (Option Value))
    (x y : Exchange) : Prop :=
  ∃ ws, y.woken = x.woken ++ ws ∧ Pending.Wakes history (x.pending.settling s) x.pending ws

structure Operates (history : Ticket → List (Deed Value)) (x : Exchange) : Prop where
  post : ∀ p v, x.closed = false → Wakes history (only p (some v)) x (x.post p v).2
  closePort : ∀ p, p ≠ reversePort → Wakes history (only p none) x (x.closePort p).2
  shutdown : x.closed = false → Wakes history (fun _ => some none) x x.shutdown

theorem operates {history : Ticket → List (Deed Value)} (hx : x.pending.Sound)
    (hh : ∀ k < x.pending.slots.length, Behaves (history k) (x.pending.slot k)) :
    Operates history x where
  post p v hopen := ((x.post_posted p v).settles hx hopen).wakes hh
  closePort _ hp := (settles_closePort hx hp).wakes hh
  shutdown hopen := (settles_shutdown hx hopen).wakes hh

end Exchange

namespace Floor

def owner : Pending.Owner (Floor α ε) (Option String × Move α ε) where
  table f := f.exchange.pending
  next f e := (f.apply e.1 e.2).2
  woken f e := (f.apply e.1 e.2).2.exchange.woken.drop f.exchange.woken.length
  act f e := f.acts e.2 (f.apply e.1 e.2).2.exchange.pending

theorem woken_next (f : Floor α ε) (e : Option String × Move α ε) (hx : f.exchange.pending.Sound) :
    (owner.next f e).exchange.woken = f.exchange.woken ++ owner.woken f e := by
  obtain ⟨ws, hws, -⟩ := (f.treats_apply e.1 e.2).steps hx
  change (f.apply e.1 e.2).2.exchange.woken = _ ++ List.drop _ _
  rw [hws, List.drop_left]

theorem faithful : (owner : Pending.Owner (Floor α ε) (Option String × Move α ε)).Faithful := by
  intro f e hx
  obtain ⟨ws, hws, hsteps⟩ := (f.treats_apply e.1 e.2).steps hx
  change Pending.Steps (f.acts e.2 _) f.exchange.pending _ (List.drop _ _)
  rw [hws, List.drop_left]
  exact hsteps

/-- All that becomes of the pending calls after a run follows from what was done to their slots. -/
structure Recalls (ms : List (Option String × Move α ε)) (f : Floor α ε) : Prop where
  told : owner.Told ms f
  woken : ∀ e, (owner.next (runBy ms f) e).exchange.woken =
    (runBy ms f).exchange.woken ++ owner.woken (runBy ms f) e
  operates : Exchange.Operates (owner.history ms f) (runBy ms f).exchange
  answers : ∀ thread n r k h, (runBy ms f).session.tickets[n]?.join = some k →
    ((runBy ms f).apply thread (.step (.readTicket n r) h)).1 =
      .slot (r.shows (due (owner.history ms f k)))

theorem recalls_runBy {s : Settings} {x : Exchange} (hx : Exchange.create s = .ok x)
    (ms : List (Option String × Move α ε)) : Recalls ms (start x) := by
  have hpending : (start x : Floor α ε).exchange.pending = .empty s.maxPending := by
    obtain ⟨-, rfl⟩ := Exchange.create_eq hx
    rfl
  have hsound : (start x : Floor α ε).exchange.pending.Sound := hpending ▸ Pending.empty_sound _
  have hempty : (start x : Floor α ε).exchange.pending.slots = [] := by
    rw [hpending]
    rfl
  have hissues : (start x : Floor α ε).Issues := Pending.issues_nil _
  have hrun : (runBy ms (start x)).exchange.pending.Sound := faithful.sound_run ms hsound
  have htold := faithful.told ms hsound hempty
  refine ⟨htold, fun e => woken_next _ e hrun, Exchange.operates hrun htold.behaves,
    fun thread n r k h hk => ?_⟩
  change ((runBy ms (start x)).session.readTicket n r).1 = _
  rw [Session.readTicket, hk]
  exact congrArg Answer.slot
    ((htold.behaves k (hissues.runBy hsound ms n k hk)).answers r)

/-- The first settlement of a call stands, one read takes its value, and whoever polled it last
before is woken by it, and nobody else by anything. That is so for a slot, whatever is done to it
and by whichever handles, for every slot of a table of pending calls, and for every pending call of
an exchange, where it is settled by a delivery, a closing or a shutdown. -/
theorem settlement_wakes_last_poller {β : Type} (as : List (Act β))
    (cs : List (OneShot.Pair.Command β)) (limit : UInt64) (ds : List Pending.Held.Command)
    {s : Settings} {x : Exchange} (hx : Exchange.create s = .ok x)
    (ms : List (Option String × Move α ε)) :
    Behaves (deeds as .fresh) (OneShot.after as .fresh) ∧
      ((OneShot.Pair.run cs .fresh).slot = OneShot.after (OneShot.Pair.allActs cs .fresh) .fresh ∧
        ∀ c, (OneShot.Pair.run cs .fresh).Plays c) ∧
      Pending.Held.Recalls ds ⟨.empty limit, []⟩ ∧ Recalls ms (start x) :=
  ⟨OneShot.behaves_after as, ⟨OneShot.Pair.slot_run cs .fresh, OneShot.Pair.plays _⟩,
    Pending.Held.recalls_run limit ds, recalls_runBy hx ms⟩

/-- Of two pollers the second is woken, whoever settles the call. -/
theorem settlement_wakes_second_of_two : ∃ x, Exchange.create .standard = .ok x ∧
    let as : List (Act Nat) :=
      [.read (.poll ⟨1⟩), .read (.poll ⟨2⟩), .read .tryTake, .settle (some 5), .settle none,
        .read .tryTake, .read .tryTake]
    let cs : List (OneShot.Pair.Command Nat) :=
      [.read (.poll ⟨1⟩), .race (.poll ⟨2⟩) (some 5), .read .tryTake]
    let ds : List Pending.Held.Command :=
      [.register ⟨7⟩, .read 0 (.poll ⟨1⟩), .read 0 (.poll ⟨2⟩)]
    let ms : List (Option String × Move Unit Unit) :=
      [(none, .step .openSingle rfl), (none, .step (.readTicket 0 (.poll ⟨1⟩)) rfl),
        (some "t", .step (.readTicket 0 (.poll ⟨2⟩)) rfl)]
    (OneShot.wakes as .fresh = [⟨2⟩] ∧
        Pending.Held.owner.woken (Pending.Held.owner.run ds ⟨.empty 4, []⟩) .abandonAll = [⟨2⟩] ∧
        owner.woken (runBy ms (start x)) (some "t", .deliver ⟨1⟩ (.int 5)) = [⟨2⟩] ∧
        owner.woken (runBy ms (start x)) (none, .step .shutdownDispatcher rfl) = [⟨2⟩]) ∧
      Behaves (deeds as .fresh) (OneShot.after as .fresh) ∧
      ((OneShot.Pair.run cs .fresh).slot = OneShot.after (OneShot.Pair.allActs cs .fresh) .fresh ∧
        ∀ c, (OneShot.Pair.run cs .fresh).Plays c) ∧
      Pending.Held.Recalls ds ⟨.empty 4, []⟩ ∧ Recalls ms (start x) := by
  obtain ⟨x, hx⟩ : ∃ x, Exchange.create .standard = .ok x := ⟨_, rfl⟩
  refine ⟨x, hx, ?_⟩
  intro as cs ds ms
  refine ⟨⟨rfl, rfl, ?_, ?_⟩, settlement_wakes_last_poller as cs 4 ds hx ms⟩ <;>
  · cases hx
    rfl

end Floor

end CallExchange
