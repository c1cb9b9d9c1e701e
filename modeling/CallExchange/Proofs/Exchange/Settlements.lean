import CallExchange.Proofs.Exchange.Opening
import CallExchange.Proofs.Histories

set_option autoImplicit false

/-!
# Settlements of an exchange

Which operations of an exchange settle pending calls, and with what. Whom they wake is told by the
table of pending calls alone.
-/

namespace CallExchange.Exchange

open Pending (only)

variable {x y z : Exchange} {p : PortId} {s s₁ s₂ : PortId → Option (Option Value)}
  {given : PortId → Option Value}

def calls (x : Exchange) : Pending × List Waker := (x.pending, x.woken)

/-- Pending calls are settled as `s` says, and exactly those are woken who polled them last. -/
def Settles (s : PortId → Option (Option Value)) (x y : Exchange) : Prop :=
  ∃ ws, y.woken = x.woken ++ ws ∧ Pending.Settles s x.pending y.pending ws

namespace Settles

theorem calm (hx : x.pending.Sound) (h : y.calls = x.calls) : Settles (fun _ => none) x y := by
  have hpending : y.pending = x.pending := congrArg Prod.fst h
  refine ⟨[], (congrArg Prod.snd h).trans (List.append_nil _).symm, ?_⟩
  rw [hpending]
  exact .refl hx

theorem of_calm (h : y.calls = x.calls) (hs : Settles s y z) : Settles s x z := by
  obtain ⟨ws, hws, hpending⟩ := hs
  rw [show y.woken = x.woken from congrArg Prod.snd h] at hws
  rw [show y.pending = x.pending from congrArg Prod.fst h] at hpending
  exact ⟨ws, hws, hpending⟩

theorem then_calm (hs : Settles s x y) (h : z.calls = y.calls) : Settles s x z := by
  obtain ⟨ws, hws, hpending⟩ := hs
  rw [← show z.woken = y.woken from congrArg Prod.snd h] at hws
  rw [← show z.pending = y.pending from congrArg Prod.fst h] at hpending
  exact ⟨ws, hws, hpending⟩

theorem sound (hs : Settles s x y) : y.pending.Sound := hs.elim fun _ h => h.2.sound

/-- Those who are woken are told by the histories of the slots. -/
theorem wakes {history : Ticket → List (OneShot.Deed Value)} (hs : Settles s x y)
    (hh : ∀ k < x.pending.slots.length, OneShot.Behaves (history k) (x.pending.slot k)) :
    ∃ ws, y.woken = x.woken ++ ws ∧
      Pending.Wakes history (x.pending.settling s) x.pending ws := by
  obtain ⟨ws, hws, hpending⟩ := hs
  exact ⟨ws, hws, (hpending.steps fun _ _ => rfl).wakes hh⟩

theorem trans (hx : x.pending.Sound) (hs₁ : Settles s₁ x y) (hs₂ : Settles s₂ y z) :
    Settles (fun p => (s₁ p).or (s₂ p)) x z := by
  obtain ⟨ws₁, hws₁, h₁⟩ := hs₁
  obtain ⟨ws₂, hws₂, h₂⟩ := hs₂
  exact ⟨ws₁ ++ ws₂, by rw [hws₂, hws₁, List.append_assoc], h₁.trans hx h₂⟩

end Settles

theorem calls_ring (x : Exchange) : x.ring.calls = x.calls := by
  unfold ring
  split <;> rfl

theorem calls_drop (x : Exchange) (p : PortId) (why : DropReason) :
    (x.drop p why).calls = x.calls := by
  unfold drop
  dsimp only
  split <;> rfl

theorem calls_openBroadcast (x : Exchange) (task : String) :
    (x.openBroadcast task).2.calls = x.calls := by
  unfold openBroadcast
  split <;> rfl

theorem calls_closeBroadcast (x : Exchange) (p : PortId) :
    (x.closeBroadcast p).2.calls = x.calls := by
  unfold closeBroadcast
  split <;> rfl

theorem calls_closeInboxes (x : Exchange) (ps : List PortId) :
    (x.closeInboxes ps).calls = x.calls := by
  induction ps generalizing x with
  | nil => rfl
  | cons p ps ih => exact ih (x.closeInbox p)

theorem Posted.settles {v : Value} {d : Delivery} (hp : Posted x p v d y) (hx : x.pending.Sound)
    (hopen : x.closed = false) : Settles (only p (some v)) x y := by
  have habsent : x.ticket? p = none → y.calls = x.calls → Settles (only p (some v)) x y :=
    fun ht hy => .then_calm ⟨[], (List.append_nil _).symm, Pending.settles_absent hx _ ht⟩ hy
  cases hp with
  | completed w r _ hr =>
    have hsettled : Settles (only p (some v)) x ({ x with pending := r }.wake w.toList) :=
      ⟨w.toList, rfl, Pending.settles_retire hx (some v) hr⟩
    exact hsettled.then_calm (calls_ring _)
  | queued _ ht _ _ => exact habsent ht (calls_ring _)
  | dropped why h =>
    rcases h with hclosed | ⟨ht, -⟩
    · rw [hopen] at hclosed
      cases hclosed
    · exact habsent ht (x.calls_drop p why)

theorem settles_cancelPending (hx : x.pending.Sound) (p : PortId) :
    Settles (only p none) x (x.cancelPending p).2 := by
  rcases x.cancelPending_eq p with ⟨he, ht⟩ | ⟨w, r, hr, he⟩ <;> rw [he]
  · exact ⟨[], (List.append_nil _).symm, Pending.settles_absent hx _ ht⟩
  · exact ⟨w.toList, rfl, Pending.settles_retire hx none hr⟩

theorem settles_closePort (hx : x.pending.Sound) (hp : p ≠ reversePort) :
    Settles (only p none) x (x.closePort p).2 := by
  have hcalm := x.calls_closeBroadcast p
  have hsound : (x.closeBroadcast p).2.pending.Sound := by
    rw [show (x.closeBroadcast p).2.pending = x.pending from congrArg Prod.fst hcalm]
    exact hx
  rw [x.closePort_snd hp]
  exact .of_calm hcalm (settles_cancelPending hsound p)

theorem settles_shutdown (hx : x.pending.Sound) (hopen : x.closed = false) :
    Settles (fun _ => some none) x x.shutdown := by
  have hcalls : x.shutdown.calls = (x.pending.abandonAll.2, x.woken ++ x.pending.abandonAll.1) := by
    rw [shutdown, if_neg (by rw [hopen]; exact Bool.false_ne_true)]
    exact (calls_ring _).trans (calls_closeInboxes _ (x.ports.map Prod.fst))
  have hemptied : Settles (fun _ => some none) x
      { x with pending := x.pending.abandonAll.2, woken := x.woken ++ x.pending.abandonAll.1 } :=
    ⟨x.pending.abandonAll.1, rfl, Pending.settles_abandonAll hx⟩
  exact hemptied.then_calm hcalls

def Gives (given : PortId → Option Value) (x y : Exchange) : Prop :=
  x.pending.Sound → ∃ s, (∀ p v, s p = some v → v = given p) ∧ Settles s x y

abbrev Lapses : Exchange → Exchange → Prop := Gives fun _ => none

namespace Gives

theorem calm (h : y.calls = x.calls) : Gives given x y :=
  fun hx => ⟨fun _ => none, nofun, .calm hx h⟩

theorem of_calm (h : y.calls = x.calls) (hg : Gives given y z) : Gives given x z := by
  intro hx
  rw [← show y.pending = x.pending from congrArg Prod.fst h] at hx
  obtain ⟨s, hs, hsettles⟩ := hg hx
  exact ⟨s, hs, hsettles.of_calm h⟩

theorem then_calm (hg : Gives given x y) (h : z.calls = y.calls) : Gives given x z := by
  intro hx
  obtain ⟨s, hs, hsettles⟩ := hg hx
  exact ⟨s, hs, hsettles.then_calm h⟩

theorem trans (h₁ : Gives given x y) (h₂ : Gives given y z) : Gives given x z := by
  intro hx
  obtain ⟨s₁, hs₁, hfirst⟩ := h₁ hx
  obtain ⟨s₂, hs₂, hsecond⟩ := h₂ hfirst.sound
  refine ⟨_, fun p v hv => ?_, hfirst.trans hx hsecond⟩
  rcases Option.or_eq_some_iff.1 hv with hv | ⟨-, hv⟩
  · exact hs₁ p v hv
  · exact hs₂ p v hv

end Gives

theorem only_eq_some {q : PortId} {v u : Option Value} (h : only p v q = some u) :
    q = p ∧ u = v := by
  rw [only] at h
  split at h
  · rename_i hq
    exact ⟨hq, (Option.some.inj h).symm⟩
  · cases h

theorem gives_post (x : Exchange) (p : PortId) (v : Value) :
    Gives (fun q => if p = q then some v else none) x (x.post p v).2 := by
  cases hopen : x.closed with
  | false =>
    refine fun hx => ⟨_, fun q u hu => ?_, (x.post_posted p v).settles hx hopen⟩
    obtain ⟨hq, hu⟩ := only_eq_some hu
    exact hu.trans (if_pos hq.symm).symm
  | true =>
    refine .calm ?_
    rw [post, if_pos hopen]
    exact x.calls_drop p .exchangeClosed

theorem lapses_closePort (x : Exchange) (p : PortId) : Lapses x (x.closePort p).2 := by
  by_cases hp : p = reversePort
  · rw [closePort, if_pos hp]
    exact .calm rfl
  · exact fun hx => ⟨_, fun q u hu => (only_eq_some hu).2, settles_closePort hx hp⟩

theorem lapses_shutdown (x : Exchange) : Lapses x x.shutdown := by
  cases hopen : x.closed with
  | false => exact fun hx => ⟨_, fun _ _ hv => (Option.some.inj hv).symm, settles_shutdown hx hopen⟩
  | true =>
    rw [shutdown_of_closed hopen]
    exact .calm rfl

theorem lapses_release (x : Exchange) : Lapses x x.release := by
  unfold release
  split
  · exact .calm rfl
  · exact x.lapses_shutdown.then_calm rfl
  · exact .calm rfl

theorem Broadcast.lapses_close (b : Broadcast) (x : Exchange) : Lapses x (b.close x).2 := by
  unfold Broadcast.close
  dsimp only
  split
  · split <;> exact .calm rfl
  · have hport := (x.setInbox b.id (x.inbox b.id).close.2).lapses_closePort b.id
    split <;> exact .of_calm (y := x.setInbox b.id (x.inbox b.id).close.2) rfl (hport.then_calm rfl)

end CallExchange.Exchange
