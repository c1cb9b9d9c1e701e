import CallExchange.Proofs.Floor.Turns

set_option autoImplicit false

/-!
# What handles do to an exchange

Through a handle an exchange is reported to, an inbox or a slot is read, a port is closed or the
exchange is let go of, and nothing else is done to it. So a relation that allows for these few
operations holds between the exchanges before and after any move that uses a handle.
-/

namespace CallExchange

variable {α ε : Type}

/-- Whatever state a computation leaves, by returning or by an abort, is one of `P`. -/
def Outcome.Leaves {σ β : Type} (P : σ → Prop) : Outcome σ β → Prop
  | returned _ s | unwound _ s => P s
  | exhausted => True

theorem Outcome.leaves_mono {σ β : Type} {o : Outcome σ β} {P Q : σ → Prop} (h : o.Leaves P)
    (hpq : ∀ s, P s → Q s) : o.Leaves Q := by
  cases o with
  | returned _ s | unwound _ s => exact hpq s h
  | exhausted => trivial

theorem Outcome.leaves_map {σ τ β γ : Type} {o : Outcome σ β} {f : β → γ} {g : σ → τ} {P : τ → Prop}
    (h : o.Leaves fun s => P (g s)) : (o.map f g).Leaves P := by
  cases o <;> exact h

theorem Outcome.of_endsIn {σ β : Type} {o : Outcome σ β} {P : σ → Prop} {s : σ} (h : o.EndsIn s)
    (hp : o.Leaves P) : P s := by
  rcases h with ⟨b, ho⟩ | ⟨p, ho⟩ <;> rw [ho] at hp <;> exact hp

/-- A relation that allows for reports. -/
structure Exchange.ReportFrame (R : Exchange → Exchange → Prop) : Prop where
  refl : ∀ x, R x x
  note : ∀ x n, R x (x.note n)

structure Exchange.Frame (R : Exchange → Exchange → Prop) :
    Prop extends Exchange.ReportFrame R where
  trans : ∀ {x y z}, R x y → R y z → R x z
  setInbox : ∀ x p b, R x (x.setInbox p b)
  closePort : ∀ x p, R x (x.closePort p).2
  close : ∀ (b : Exchange.Broadcast) x, R x (b.close x).2
  release : ∀ x, R x x.release

structure Exchange.WideFrame (R : Exchange → Exchange → Prop) : Prop extends Exchange.Frame R where
  hold : ∀ x, R x x.hold
  record : ∀ x e, R x (x.record e)
  use : ∀ x u, R x (x.use u)

def Move.looks : Move α ε → Bool
  | .step (.tryTake _) _ | .step (.waitTimeout _ _) _ | .step (.poll _ _) _ | .step (.wait _) _
  | .step (.readTicket _ _) _ => true
  | _ => false

namespace Exchange.ReportFrame

variable {R : Exchange → Exchange → Prop} {thread : Option String} {k : Ticket}
  (hR : ReportFrame R)

include hR

theorem lift (r : Reader) (c : Decoded α ε) (x : Exchange) : R x (r.lift c x).2 := by
  cases c with
  | success | application => exact hR.refl x
  | abort | malformed => exact hR.note x _

theorem finish (d : Deferred α ε) (v : OneShot.Verdict Value) (x : Exchange) :
    (d.finish thread v x).Leaves (R x) := by
  cases v with
  | abandoned => exact hR.refl x
  | value v =>
    simp only [Deferred.finish, Reader.read]
    cases d.codec.decode v with
    | error p => exact hR.refl x
    | ok r => exact hR.lift ⟨d.task, thread⟩ r x

theorem readBy_waiting {d : Deferred α ε} (hd : d.state = .waiting k) (x : Exchange)
    (g : OneShot Value → Except Panic (Option (OneShot.Verdict Value) × OneShot Value)) :
    (Deferred.readBy thread g (d, x)).Leaves fun t =>
      match g (x.pending.slot k) with
      | .ok a => R (x.setSlot k a.2) t.2
      | .error _ => t.2 = x := by
  simp only [Deferred.readBy, hd]
  cases g (x.pending.slot k) with
  | error p => exact rfl
  | ok a =>
    obtain ⟨_ | v, s⟩ := a
    · exact hR.refl _
    · exact Outcome.leaves_map (hR.finish d v (x.setSlot k s))

end Exchange.ReportFrame

namespace Exchange.Frame

variable {R : Exchange → Exchange → Prop} {thread : Option String} (hR : Frame R)

include hR

section Results

variable (d : Deferred α ε)

theorem letGo (x : Exchange) : R x (d.letGo x) := by
  unfold Deferred.letGo
  split
  · exact hR.release x
  · exact hR.refl x

theorem drop (x : Exchange) : R x (d.drop x) := by
  unfold Deferred.drop
  refine hR.trans ?_ (hR.letGo d _)
  split
  · dsimp only
    split
    · exact hR.trans (hR.closePort x d.port) (hR.note _ _)
    · exact hR.closePort x d.port
  · exact hR.refl x

variable (hslot : ∀ x k s, R x (x.setSlot k s))

include hslot

theorem readBy (x : Exchange)
    (g : OneShot Value → Except Panic (Option (OneShot.Verdict Value) × OneShot Value)) :
    (Deferred.readBy thread g (d, x)).Leaves fun t => R x t.2 := by
  cases hd : d.state with
  | failed failure =>
    rw [Deferred.readBy_failed thread g hd]
    exact hR.refl x
  | waiting k =>
    refine Outcome.leaves_mono (hR.readBy_waiting hd x g) fun t ht => ?_
    split at ht
    · exact hR.trans (hslot x k _) ht
    · rw [ht]
      exact hR.refl x

theorem wait (x : Exchange) : (d.wait thread x).Leaves (R x) := by
  unfold Deferred.wait Deferred.tryTake
  refine Outcome.leaves_map (Outcome.leaves_mono (hR.readBy d hslot x _) fun t ht => ?_)
  split
  · exact hR.trans ht (hR.letGo d t.2)
  · exact ht

end Results

section Streams

variable (c : Stream α ε)

theorem letGoStream (x : Exchange) : R x (c.letGo x) := by
  unfold Stream.letGo
  split
  · exact hR.release x
  · exact hR.refl x

theorem finishStream (x : Exchange) : R x (c.finish x).2 :=
  hR.trans (hR.close c.port x) (hR.letGoStream c _)

theorem failStream (f : Failure ε) (x : Exchange) : R x (c.fail f x).2 :=
  hR.trans (hR.close c.port x) (hR.letGoStream c _)

theorem closeStream (x : Exchange) : R x (c.close x).2 := by
  unfold Stream.close
  split
  · exact hR.refl x
  · refine hR.trans ?_ (hR.letGoStream c _)
    split
    · exact hR.trans (hR.close c.port x) (hR.note _ _)
    · exact hR.close c.port x

theorem dropStream (x : Exchange) : R x (c.drop x) :=
  hR.trans (hR.close c.port x) (hR.letGoStream c _)

theorem accept (r : Inbox.Received) (x : Exchange) :
    (Stream.accept thread r (c, x)).Leaves fun t => R x t.2 := by
  cases r with
  | ended => exact hR.finishStream c x
  | value v =>
    simp only [Stream.accept]
    split
    · exact hR.trans (hR.note x _) (hR.finishStream c _)
    · split
      · exact hR.refl x
      · exact hR.refl x
      · exact hR.trans (hR.finishStream c x) (hR.lift _ _ _)

theorem pullBy (x : Exchange) (g : Inbox → Except Panic (Option Inbox.Received × Inbox)) :
    (Stream.pullBy thread g (c, x)).Leaves fun t => R x t.2 := by
  simp only [Stream.pullBy]
  cases c.failure with
  | some failure => exact hR.refl x
  | none =>
    dsimp only
    split
    · exact hR.refl x
    · cases g (x.inbox c.port.id) with
      | error p => exact hR.refl x
      | ok a =>
        obtain ⟨_ | r, b⟩ := a
        · exact hR.setInbox x c.port.id b
        · exact Outcome.leaves_mono (hR.accept c r (x.setInbox c.port.id b))
            fun t ht => hR.trans (hR.setInbox x c.port.id b) ht

end Streams

variable {f : Floor α ε} {m : Move α ε} {n : Nat}

theorem withHandle {η : Type} {handles : List (Option η)} {g : η → Session.Turn α ε}
    (hg : ∀ e, handles[n]?.join = some e → R f.exchange (f.turn (g e)).2.exchange) :
    R f.exchange (f.turn (f.session.withHandle handles n g)).2.exchange := by
  unfold Session.withHandle
  split
  · rename_i e he
    exact hg e he
  · exact hR.refl _

theorem withDispatcher {g : Exchange → Session.Turn α ε}
    (hg : R f.exchange (f.turn (g f.exchange)).2.exchange) :
    R f.exchange (f.turn (f.session.withDispatcher g)).2.exchange := by
  unfold Session.withDispatcher
  split
  · exact hg
  · exact hR.refl _

theorem readDeferred (hslot : ∀ x k s, R x (x.setSlot k s)) (late : Answer α ε)
    (g : OneShot Value → Except Panic (Option (OneShot.Verdict Value) × OneShot Value)) :
    R f.exchange
      (f.turn (f.session.readDeferred n late (Deferred.readBy thread g))).2.exchange := by
  refine hR.withHandle fun d _ => ?_
  have hread : (Deferred.readBy thread g (d, f.exchange)).Leaves fun t => R f.exchange t.2 :=
    hR.readBy d hslot f.exchange g
  rw [Floor.session_exchange]
  cases hr : Deferred.readBy thread g (d, f.exchange) with
  | returned r t | unwound p t =>
    rw [hr] at hread
    exact hread
  | exhausted => exact hR.refl _

theorem waitDeferred (hslot : ∀ x k s, R x (x.setSlot k s)) :
    R f.exchange (f.turn (f.session.waitDeferred thread n)).2.exchange := by
  refine hR.withHandle fun d _ => ?_
  have hwait : (d.wait thread f.exchange).Leaves (R f.exchange) := hR.wait d hslot f.exchange
  rw [Floor.session_exchange]
  split
  · cases hr : d.wait thread f.exchange with
    | returned r t | unwound p t =>
      rw [hr] at hwait
      exact hwait
    | exhausted => exact hR.refl _
  · exact hR.refl _

theorem pullStream (g : Inbox → Except Panic (Option Inbox.Received × Inbox))
    (answer : Stream.Pull α ε → Answer α ε) :
    R f.exchange
      (f.turn (f.session.pullStream n (Stream.pullBy thread g) answer)).2.exchange := by
  refine hR.withHandle fun c _ => ?_
  have hpull : (Stream.pullBy thread g (c, f.exchange)).Leaves fun t => R f.exchange t.2 :=
    hR.pullBy c f.exchange g
  rw [Floor.session_exchange]
  cases hr : Stream.pullBy thread g (c, f.exchange) with
  | returned r t | unwound p t =>
    rw [hr] at hpull
    exact hpull
  | exhausted => exact hR.refl _

theorem receiveBy (late : Answer α ε)
    (g : Inbox → Except Panic (Option Inbox.Received × Inbox)) :
    R f.exchange (f.turn (f.session.receiveBy n late g)).2.exchange := by
  refine hR.withHandle fun b _ => ?_
  rw [Floor.session_exchange]
  cases g (f.exchange.inbox b.id) with
  | error p => exact hR.refl _
  | ok a => exact hR.setInbox f.exchange b.id a.2

theorem dropDispatcher :
    R f.exchange (f.step thread .dropDispatcher).2.exchange := by
  change R f.exchange (if f.isBusy then (.wouldBlock, f)
    else f.turn (f.session.withDispatcher _) : Floor.Turn α ε).2.exchange
  split
  · exact hR.refl _
  · exact hR.withDispatcher (hR.release f.exchange)

theorem apply_place {q : Place} (hm : m.place? = some q) (hq : q.shelf ≠ .running)
    (hslot : m.looks = true → ∀ x k s, R x (x.setSlot k s)) :
    R f.exchange (f.apply thread m).2.exchange := by
  cases m with
  | finish i ended =>
    cases hm
    exact absurd rfl hq
  | step st h =>
    cases st with
    | tryTake | waitTimeout | poll => exact hR.readDeferred (hslot rfl) _ _
    | wait => exact hR.waitDeferred (hslot rfl)
    | dropDeferred => exact hR.withHandle fun d _ => hR.drop d f.exchange
    | next | nextTimeout => exact hR.pullStream _ _
    | closeStream => exact hR.withHandle fun c _ => hR.closeStream c f.exchange
    | dropStream => exact hR.withHandle fun c _ => hR.dropStream c f.exchange
    | readTicket n r =>
      change R f.exchange (f.turn (f.session.readTicket n r)).2.exchange
      unfold Session.readTicket
      split
      · exact hR.refl _
      · exact hslot rfl f.exchange _ _
    | receive | receiveWithin => exact hR.receiveBy _ _
    | tryReceive => exact hR.withHandle fun b _ => hR.setInbox f.exchange b.id _
    | closeBroadcast | dropBroadcast => exact hR.withHandle fun b _ => hR.close b f.exchange
    | dropDispatcher => exact hR.dropDispatcher
    | _ => cases hm
  | _ => cases hm

end Exchange.Frame

namespace Exchange.WideFrame

variable {R : Exchange → Exchange → Prop} {thread : Option String} {f : Floor α ε} {m : Move α ε}
  (hR : WideFrame R)

include hR

theorem ofEntry (r : Reader) (codec : Codec α ε) (ended : Except Panic Buffer) (x : Exchange) :
    R x (r.ofEntry codec ended x).2 := by
  cases ended with
  | error p => exact hR.note x _
  | ok b =>
    have hfreed : R x ((x.use (.decoded b)).free b) :=
      hR.trans (hR.use x _) (hR.trans (hR.use _ _) (hR.record _ _))
    simp only [Reader.ofEntry, Reader.readBuffer]
    cases codec.decodeBuffer b with
    | error p => exact hR.trans hfreed (hR.note _ _)
    | ok d => exact hR.trans hfreed (hR.lift r d _)

theorem finish (i : Nat) (ended : Except Panic Buffer) :
    R f.exchange (f.finish thread i ended).2.exchange := by
  unfold Floor.finish
  split
  · exact hR.refl _
  · rename_i r _
    cases r with
    | async task codec p k =>
      cases ended with
      | ok b => exact hR.hold f.exchange
      | error e => exact hR.trans (hR.closePort f.exchange p) (hR.note _ _)
    | stream task codec port =>
      cases ended with
      | ok b => exact hR.refl _
      | error e =>
        exact hR.trans (hR.note f.exchange _)
          (hR.failStream ⟨port, codec, task, none, false⟩
            (.fatal (.observed thread port.name e.message)) _)
    | sync task codec => exact hR.ofEntry ⟨task, thread⟩ codec ended f.exchange
    | callback =>
      cases ended with
      | ok b => exact hR.record f.exchange _
      | error e => exact hR.refl _

theorem apply_place {q : Place} (hm : m.place? = some q)
    (hslot : m.looks = true → ∀ x k s, R x (x.setSlot k s)) :
    R f.exchange (f.apply thread m).2.exchange := by
  cases m with
  | finish i ended => exact hR.finish i ended
  | step st h =>
    refine hR.toFrame.apply_place hm ?_ hslot
    cases st <;> cases hm <;> nofun
  | _ => cases hm

end Exchange.WideFrame

end CallExchange
