import CallExchange.Proofs.Routing

set_option autoImplicit false

/-!
# Watching one port

What a move does to a port whose handle it does not use: a post to it, a closing of it and a
shutdown are the only moves that count. No other handle knows the port or its ticket, and none ever
will.
-/

namespace CallExchange

open Exchange (Op Runs Retired Down)

variable {α ε : Type}

namespace Move

def postTo? (p : PortId) (m : Move α ε) : Option Value :=
  m.post?.bind fun d => if d.1 = p then some d.2 else none

def completes? (p : PortId) : Move α ε × Answer α ε → Option Value
  | (m, .reply (.delivery .completed)) => m.postTo? p
  | _ => none

theorem postTo?_eq_some {p : PortId} {m : Move α ε} {v : Value} (h : m.postTo? p = some v) :
    m.post? = some (p, v) := by
  rw [postTo?, Option.bind_eq_some_iff] at h
  obtain ⟨⟨q, w⟩, hpost, hq⟩ := h
  dsimp only at hq
  split at hq
  · rename_i he
    cases hq
    rw [hpost, he]
  · cases hq

theorem postTo?_eq_none {p : PortId} {m : Move α ε} (h : m.postTo? p = none) (v : Value) :
    m.post? ≠ some (p, v) := by
  intro hpost
  rw [postTo?, hpost, Option.bind_some, if_pos rfl] at h
  cases h

theorem completes?_eq_some {p : PortId} {e : Move α ε × Answer α ε} {v : Value}
    (h : completes? p e = some v) : e.1.postTo? p = some v := by
  unfold completes? at h
  split at h
  · exact h
  · cases h

theorem completes?_of_postTo? {p : PortId} {m : Move α ε} (h : m.postTo? p = none)
    (a : Answer α ε) : completes? p (m, a) = none := by
  unfold completes?
  split
  · rename_i heq
    cases heq
    exact h
  · rfl

theorem tearsDown_of_post? {p q : PortId} {m : Move α ε} {v : Value} (h : m.post? = some (q, v))
    (a : Answer α ε) : tearsDown p (m, a) = false := by
  unfold post? at h
  split at h <;> first | rfl | cases h

theorem quiet_of_place? {p : PortId} {m : Move α ε} {q : Place} (h : m.place? = some q)
    (a : Answer α ε) : m.postTo? p = none ∧ tearsDown p (m, a) = false := by
  unfold place? at h
  split at h <;> first | exact ⟨rfl, rfl⟩ | cases h

end Move

namespace Floor

variable {f f' : Floor α ε} {m : Move α ε} {a : Answer α ε} {ops : List Op} {n : Nat}
  {p : PortId} {k : Ticket} {mine : Place} {thread : Option String}

/-- No handle but the one at `mine` knows `p`. -/
def PortApart (f : Floor α ε) (mine : Place) (p : PortId) : Prop :=
  ∀ q h, q ≠ mine → f.handle? q = some h → h.port? ≠ some p

def TicketApart (f : Floor α ε) (mine : Place) (k : Ticket) : Prop :=
  ∀ q h, q ≠ mine → f.handle? q = some h → h.ticket? ≠ some k

theorem PortApart.effect (he : Effect f m a f' ops) (hp : f.exchange.Issued p)
    (hm : m.place? ≠ some mine) (h : f.PortApart mine p) : f'.PortApart mine p := by
  intro q h₁ hq hq₁ hport
  rcases he.born q h₁ hq₁ with hold | hfresh | ⟨q₀, h₀, hq₀, hh₀, hfrom⟩
  · exact h q h₁ hq hold hport
  · exact hp.ne_next (hfresh.port p hport).2.1
  · exact h q₀ h₀ (fun he => hm (by rw [hq₀, he])) hh₀ (hfrom.port p hport)

theorem TicketApart.effect (he : Effect f m a f' ops) (hk : k < f.exchange.pending.slots.length)
    (hm : m.place? ≠ some mine) (h : f.TicketApart mine k) : f'.TicketApart mine k := by
  intro q h₁ hq hq₁ hticket
  rcases he.born q h₁ hq₁ with hold | hfresh | ⟨q₀, h₀, hq₀, hh₀, hfrom⟩
  · exact h q h₁ hq hold hticket
  · exact Nat.ne_of_lt hk (hfresh.ticket k hticket).1
  · exact h q₀ h₀ (fun he => hm (by rw [hq₀, he])) hh₀ (hfrom.ticket k hticket)

theorem PortApart.swap {h : Option (Handle α ε)} (hs : Swap mine h f f') (ha : f.PortApart mine p) :
    f'.PortApart mine p := by
  intro q h₁ hq hq₁
  rw [hs.elsewhere hq] at hq₁
  exact ha q h₁ hq hq₁

theorem TicketApart.swap {h : Option (Handle α ε)} (hs : Swap mine h f f')
    (ha : f.TicketApart mine k) : f'.TicketApart mine k := by
  intro q h₁ hq hq₁
  rw [hs.elsewhere hq] at hq₁
  exact ha q h₁ hq hq₁

theorem PortApart.opened {h : Handle α ε} (hs : f.Sound n) (hswap : Swap mine (some h) f f')
    (hp : p = f.exchange.nextPort) : f'.PortApart mine p := by
  intro q h₁ hq hq₁ hport
  rw [hswap.elsewhere hq] at hq₁
  exact (hs.ports q h₁ p hq₁ hport).1.ne_next hp

theorem TicketApart.opened {h : Handle α ε} (hs : f.Sound n) (hswap : Swap mine (some h) f f')
    (hk : k = f.exchange.pending.slots.length) : f'.TicketApart mine k := by
  intro q h₁ hq hq₁ hticket
  rw [hswap.elsewhere hq] at hq₁
  exact Nat.ne_of_lt (hs.tickets q h₁ k hq₁ hticket) hk

/-- What was known at one place alone is known at another alone when it is passed on. -/
theorem PortApart.passed {f₁ : Floor α ε} {q : Place} {h : Handle α ε} (hs : Swap mine none f f₁)
    (hs' : Swap q (some h) f₁ f') (ha : f.PortApart mine p) : f'.PortApart q p := by
  intro q₁ h₁ hq hq₁
  rw [hs'.elsewhere hq] at hq₁
  obtain hnone | ⟨hne, hq₁⟩ := hs.origin hq₁
  · cases hnone
  · exact ha q₁ h₁ hne hq₁

theorem TicketApart.passed {f₁ : Floor α ε} {q : Place} {h : Handle α ε} (hs : Swap mine none f f₁)
    (hs' : Swap q (some h) f₁ f') (ha : f.TicketApart mine k) : f'.TicketApart q k := by
  intro q₁ h₁ hq hq₁
  rw [hs'.elsewhere hq] at hq₁
  obtain hnone | ⟨hne, hq₁⟩ := hs.origin hq₁
  · cases hnone
  · exact ha q₁ h₁ hne hq₁

/-- The handle at `mine` is the only one that knows `p`, and the exchange is there as long as it
is. -/
structure Keeps (f : Floor α ε) (mine : Place) (h : Handle α ε) (p : PortId) : Prop where
  handle : f.handle? mine = some h
  port : h.port? = some p
  apart : f.PortApart mine p
  held : 1 ≤ h.owns ∨ h.isCall = true

theorem Keeps.claims {h : Handle α ε} (hk : f.Keeps mine h p) (hs : f.Sound n) : 1 ≤ f.claims := by
  rcases hk.held with hown | hcall
  · exact Nat.le_trans hown (owns_le_claims hk.handle)
  · exact owns_le_claims (handle?_dispatcher (hs.calls mine h hk.handle hcall))

theorem Keeps.apply {h : Handle α ε} (hk : f.Keeps mine h p)
    (hs : f.Sound (m.opensPort.toNat + n)) (hm : m.place? ≠ some mine) (thread : Option String) :
    (f.apply thread m).2.Keeps mine h p := by
  obtain ⟨ops, he⟩ := hs.effect thread m
  have hissued := (hs.ports mine h p hk.handle hk.port).1
  exact ⟨he.kept mine h hm hk.handle, hk.port, hk.apart.effect he hissued hm, hk.held⟩

theorem Keeps.swap {h h' : Handle α ε} (hk : f.Keeps mine h p) (hs : Swap mine (some h') f f')
    (hport : h'.port? = some p) (hheld : 1 ≤ h'.owns ∨ h'.isCall = true) :
    f'.Keeps mine h' p where
  handle := hs.self
  port := hport
  apart := hk.apart.swap hs
  held := hheld

theorem Keeps.opened {h : Handle α ε} (hs : f.Sound n) (hswap : Swap mine (some h) f f')
    (hp : p = f.exchange.nextPort) (hport : h.port? = some p)
    (hheld : 1 ≤ h.owns ∨ h.isCall = true) : f'.Keeps mine h p where
  handle := hswap.self
  port := hport
  apart := .opened hs hswap hp
  held := hheld

theorem Keeps.passed {f₁ : Floor α ε} {q : Place} {h h' : Handle α ε} (hk : f.Keeps mine h p)
    (hs : Swap mine none f f₁) (hs' : Swap q (some h') f₁ f') (hport : h'.port? = some p)
    (hheld : 1 ≤ h'.owns ∨ h'.isCall = true) : f'.Keeps q h' p where
  handle := hs'.self
  port := hport
  apart := hk.apart.passed hs hs'
  held := hheld

/-- A post to an exchange that is still there, in whichever way it is made. -/
theorem apply_post {v : Value} (thread : Option String) (hm : m.post? = some (p, v))
    (hlive : f.exchange.isGone = false) :
    f.apply thread m =
      (.reply (.delivery (f.exchange.post p v).1), f.put (f.exchange.post p v).2) := by
  have hwhile : ∀ q v, f.turn (f.session.settle (f.session.stage.whileUp fun x =>
      f.session.stage.on (x.post q v) .delivery) Session.replied) =
        (.reply (.delivery (f.exchange.post q v).1), f.put (f.exchange.post q v).2) := by
    intro q v
    rw [Stage.whileUp, show f.session.stage.exchange.isGone = false from hlive]
    rfl
  unfold Move.post? at hm
  split at hm
  · cases hm
    change f.turn (f.session.settle (f.session.stage.on (f.exchange.deliver p v) .delivery) _) = _
    rw [Exchange.deliver, if_neg (by rw [hlive]; exact Bool.false_ne_true)]
    rfl
  · cases hm
    exact hwhile p v
  · cases hm
    exact hwhile Exchange.reversePort v
  · cases hm

theorem apply_post_gone {v : Value} (thread : Option String) (hm : m.post? = some (p, v))
    (hgone : f.exchange.isGone = true) :
    (f.apply thread m).1 = .reply (.delivery .dropped) ∨
      (f.apply thread m).1 = .reply .exchangeGone := by
  have hwhile : ∀ q v, (f.turn (f.session.settle (f.session.stage.whileUp fun x =>
      f.session.stage.on (x.post q v) .delivery) Session.replied)).1 = .reply .exchangeGone := by
    intro q v
    rw [Stage.whileUp, if_pos (show f.session.stage.exchange.isGone = true from hgone)]
    rfl
  unfold Move.post? at hm
  split at hm
  · cases hm
    left
    change Answer.reply (.delivery (f.exchange.deliver p v).1) = _
    rw [Exchange.deliver, if_pos hgone]
  · exact .inr (hwhile _ _)
  · exact .inr (hwhile _ _)
  · cases hm

theorem whileUp_answered {g : Exchange → Outcome Stage Reply} {r : Reply} (hr : r ≠ .exchangeGone)
    (h : (f.turn (f.session.settle (f.session.stage.whileUp g) Session.replied)).1 = .reply r) :
    f.session.stage.whileUp g = g f.exchange := by
  rw [Stage.whileUp] at h ⊢
  by_cases hgone : f.session.stage.exchange.isGone = true
  · rw [if_pos hgone] at h
    cases h
    exact absurd rfl hr
  · rw [if_neg hgone]
    rfl

theorem apply_closes (h : Move.closes p (m, (f.apply thread m).1) = true) :
    (f.apply thread m).2.exchange = (f.exchange.closePort p).2 := by
  unfold Move.closes at h
  split at h
  · rename_i q hel heq
    obtain ⟨rfl, ha⟩ := Prod.mk.inj heq
    have hqp : q = p := by simpa using h
    subst hqp
    have hup := whileUp_answered (f := f) (r := .flag true)
      (g := fun x => f.session.stage.on (x.closePort q) .flag) (by simp) ha
    change (f.turn (f.session.settle (f.session.stage.whileUp fun x =>
      f.session.stage.on (x.closePort q) .flag) Session.replied)).2.exchange = _
    rw [hup]
    rfl
  · cases h

theorem apply_shutsDown (hx : f.exchange.Consistent)
    (h : Move.shutsDown (m, (f.apply thread m).1) = true) :
    Down f.exchange (f.apply thread m).2.exchange := by
  unfold Move.shutsDown at h
  split at h
  · rename_i hel heq
    obtain ⟨rfl, ha⟩ := Prod.mk.inj heq
    have hup := whileUp_answered (f := f) (r := .nothing)
      (g := fun x => .returned .nothing (f.session.stage.put x.shutdown)) (by simp) ha
    change Down f.exchange (f.turn (f.session.settle (f.session.stage.whileUp fun x =>
      .returned .nothing (f.session.stage.put x.shutdown)) Session.replied)).2.exchange
    rw [hup]
    exact Exchange.down_shutdown hx
  · rename_i hel heq
    obtain ⟨rfl, ha⟩ := Prod.mk.inj heq
    change (f.turn (f.session.withDispatcher _)).1 = _ at ha
    change Down f.exchange (f.turn (f.session.withDispatcher _)).2.exchange
    unfold Session.withDispatcher at ha ⊢
    split at ha
    · rename_i hd
      rw [if_pos hd]
      have hnote : (f.exchange.note .shutdownRequested).Consistent := hx.of_core rfl
      exact (Exchange.down_shutdown hnote).of_core_left rfl
    · cases ha
  · cases h

inductive SlotStep (p : PortId) (e : Move α ε × Answer α ε) (s : OneShot Value) :
    OneShot Value → Prop where
  | completed (v : Value) (hs : s.isSettled = false) (he : Move.completes? p e = some v) :
      SlotStep p e s (.ready v)
  | torn (he : Move.completes? p e = none) (ht : Move.tearsDown p e = true) :
      SlotStep p e s s.abandon.1
  | same (he : Move.completes? p e = none) (ht : Move.tearsDown p e = false) : SlotStep p e s s

theorem slot_abandon {x y : Exchange} (hx : x.Consistent) (ht : Exchange.Tied p k x)
    (hy : y.slot k = if x.ticket? p = some k then (x.slot k).abandon.1 else x.slot k) :
    y.slot k = (x.slot k).abandon.1 := by
  rw [hy]
  split
  · rfl
  · rename_i hne
    rw [OneShot.abandon_of_isSettled]
    have hiff := ht.pending_iff hx
    cases htick : x.ticket? p with
    | none =>
      rw [htick] at hiff
      simpa using hiff
    | some j =>
      rw [ht.ticket j htick] at htick
      exact absurd htick hne

theorem slotStep_post {x : Exchange} {v : Value} (hx : x.Consistent) (ht : Exchange.Tied p k x)
    (hpost : m.postTo? p = some v) :
    SlotStep p (m, (.reply (.delivery (x.post p v).1) : Answer α ε)) (x.slot k)
      ((x.post p v).2.slot k) := by
  have hroutes := hx.routes p v
  have heff := hroutes.effective
  cases hd : (x.post p v).1 with
  | completed =>
    rw [hd] at heff
    obtain ⟨j, hj, -, -, hready, -⟩ := heff
    have hjk := ht.ticket j hj
    subst hjk
    have hslot : (x.post p v).2.slot j = .ready v := hready
    rw [hslot]
    exact .completed v (hx.pending.unsettled hj) hpost
  | queued | dropped =>
    have hnot : x.ticket? p ≠ some k := by
      intro hk
      have hcompleted := hroutes.completed_iff.2 (Exchange.mem_pendingPorts.2 (by rw [hk]; rfl))
      rw [hd] at hcompleted
      cases hcompleted
    have hslot : (x.post p v).2.slot k = x.slot k := hroutes.others_slot k hnot
    rw [hslot]
    exact .same rfl (Move.tearsDown_of_post? (Move.postTo?_eq_some hpost) _)

theorem slot_tearsDown (hx : f.exchange.Consistent) (hp : p ≠ Exchange.reversePort)
    (ht : Exchange.Tied p k f.exchange) (h : Move.tearsDown p (m, (f.apply thread m).1) = true) :
    (f.apply thread m).2.exchange.slot k = (f.exchange.slot k).abandon.1 := by
  rw [Move.tearsDown, Bool.or_eq_true] at h
  rcases h with hshut | hclose
  · exact (apply_shutsDown hx hshut).slot k
  · rw [apply_closes hclose]
    exact slot_abandon hx ht ((Exchange.retired_closePort hx hp).slot k)

theorem slotStep_apply {h : Handle α ε} (hs : f.Sound (m.opensPort.toNat + n))
    (hk : f.Keeps mine h p) (ht : Exchange.Tied p k f.exchange) (hta : f.TicketApart mine k)
    (hm : m.place? ≠ some mine) (thread : Option String) :
    SlotStep p (m, (f.apply thread m).1) (f.exchange.slot k)
      ((f.apply thread m).2.exchange.slot k) := by
  have hp := (hs.ports mine h p hk.handle hk.port).2
  have hleft := And.intro (hk.claims hs) ((hk.apply hs hm thread).claims (hs.apply thread))
  cases hpost : m.postTo? p with
  | some v =>
    rw [apply_post thread (Move.postTo?_eq_some hpost) (hs.isGone hleft.1)]
    exact slotStep_post hs.consistent ht hpost
  | none =>
    have hcomp := Move.completes?_of_postTo? hpost (f.apply thread m).1
    cases htear : Move.tearsDown p (m, (f.apply thread m).1) with
    | true =>
      rw [slot_tearsDown hs.consistent hp ht htear]
      exact .torn hcomp htear
    | false =>
      obtain ⟨ops, he⟩ := hs.effect thread m
      have hspares := he.spares hp (Move.postTo?_eq_none hpost) htear fun q h hq hh =>
        hk.apart q h (fun he => hm (by rw [hq, he])) hh
      have hslot := he.sameSlot hs ht hspares
        (fun q h hq hh => hta q h (fun he => hm (by rw [hq, he])) hh) hleft
      rw [hslot]
      exact .same hcomp htear

def inboxStep (p : PortId) (e : Move α ε × Answer α ε) (b : Inbox) : Inbox :=
  match e.1.postTo? p with
  | some v => (b.push v).2
  | none => if Move.tearsDown p e then b.close.2 else b

theorem inbox_post {x : Exchange} (hx : x.Consistent) (hi : x.hasInbox p = true) (v : Value) :
    (x.post p v).2.inbox p = ((x.inbox p).push v).2 := by
  have hticket : (x.ticket? p).isSome = false := by
    cases ht : (x.ticket? p).isSome with
    | false => rfl
    | true =>
      have hno := hx.pending_hasInbox p ht
      rw [hi] at hno
      cases hno
  -- with no call pending on `p`, the flag of its inbox decides
  have hfst := hx.post_fst p v
  rw [hticket, hx.open_iff p] at hfst
  have heff := (hx.routes p v).effective
  rw [hfst] at heff
  cases hb : (x.inbox p).closed with
  | false =>
    rw [hb] at heff
    have hqueue : (x.post p v).2.inbox p = ⟨(x.inbox p).queue ++ [v], false⟩ := heff.1
    rw [hqueue, Inbox.push, hb]
    rfl
  | true =>
    rw [hb] at heff
    have hinboxes : (x.post p v).2.inboxes = x.inboxes := heff.2.2
    rw [Exchange.inbox, hinboxes, Inbox.push, if_pos hb]
    rfl

theorem inbox_apply {h : Handle α ε} (hs : f.Sound (m.opensPort.toNat + n))
    (hk : f.Keeps mine h p) (hi : f.exchange.hasInbox p = true) (hm : m.place? ≠ some mine)
    (thread : Option String) :
    (f.apply thread m).2.exchange.inbox p =
      inboxStep p (m, (f.apply thread m).1) (f.exchange.inbox p) := by
  have hx := hs.consistent
  have hp := (hs.ports mine h p hk.handle hk.port).2
  have hleft := And.intro (hk.claims hs) ((hk.apply hs hm thread).claims (hs.apply thread))
  unfold inboxStep
  dsimp only
  cases hpost : m.postTo? p with
  | some v =>
    rw [apply_post thread (Move.postTo?_eq_some hpost) (hs.isGone hleft.1)]
    exact inbox_post hx hi v
  | none =>
    dsimp only
    cases htear : Move.tearsDown p (m, (f.apply thread m).1) with
    | false =>
      obtain ⟨ops, he⟩ := hs.effect thread m
      have hspares := he.spares hp (Move.postTo?_eq_none hpost) htear fun q h hq hh =>
        hk.apart q h (fun he => hm (by rw [hq, he])) hh
      exact (he.samePort hs (hx.inbox_issued p hi) hspares hleft).inbox
    | true =>
      have hor := htear
      rw [Move.tearsDown, Bool.or_eq_true] at hor
      rw [if_pos rfl]
      rcases hor with hshut | hclose
      · exact (apply_shutsDown hx hshut).inbox p
      · rw [apply_closes hclose]
        exact Exchange.inbox_closePort hx hp

end Floor

end CallExchange
