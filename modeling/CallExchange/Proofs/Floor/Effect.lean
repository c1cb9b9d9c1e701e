import CallExchange.Proofs.Exchange.Runs
import CallExchange.Proofs.Floor.Handles

set_option autoImplicit false

/-!
# Effects of moves

What a move may do at all: the operations that it performs, what becomes of the handles, and how
the number of owners follows the handles. Everything that holds along all runs is concluded from
this, and not from the moves themselves.
-/

namespace CallExchange

open Exchange (Op Runs)

def Exchange.Op.IsOn (takes : Bool) (p : PortId) : Op → Prop
  | .closePort q => q = p
  | .receive q => takes = true ∧ q = p
  | .closeBroadcast b => takes = true ∧ b.id = p
  | _ => False

def Exchange.Op.Reads (k : Ticket) : Op → Prop
  | .read j _ => j = k
  | _ => False

def Move.place? {α ε : Type} : Move α ε → Option Place
  | .step (.tryTake n) _ | .step (.waitTimeout n _) _ | .step (.poll n _) _ | .step (.wait n) _
  | .step (.dropDeferred n) _ => some ⟨.deferreds, n⟩
  | .step (.next n) _ | .step (.nextTimeout n _) _ | .step (.closeStream n) _
  | .step (.dropStream n) _ => some ⟨.streams, n⟩
  | .step (.readTicket n _) _ => some ⟨.singles, n⟩
  | .step (.receive n) _ | .step (.tryReceive n) _ | .step (.receiveWithin n _) _
  | .step (.closeBroadcast n) _ | .step (.dropBroadcast n) _ => some ⟨.broadcasts, n⟩
  | .step .dropDispatcher _ => some ⟨.dispatcher, 0⟩
  | .finish i _ => some ⟨.running, i⟩
  | _ => none

def Move.takesReverse {α ε : Type} : Move α ε → Bool
  | .step (.act .takeReverse) _ => true
  | _ => false

/-- A handle on what a move opens on the way from `x` to `y`. -/
structure Handle.Fresh {α ε : Type} (h : Handle α ε) (m : Move α ε) (x y : Exchange) : Prop where
  port : ∀ p, h.port? = some p →
    m.opensPort = true ∧ p = x.nextPort ∧ y.nextPort = x.nextPort.next
  ticket : ∀ k, h.ticket? = some k →
    k = x.pending.slots.length ∧ y.pending.slots.length = x.pending.slots.length + 1
  inbox : ∀ p, h.port? = some p → h.takes = true → y.hasInbox p = true

namespace Floor

variable {α ε : Type}

def livePost (f : Floor α ε) (m : Move α ε) : Bool := m.post?.isSome && !f.exchange.isGone

/-- The operations that a move may perform: those that it is named for, and those on the port and
the slot of the handle that it uses. -/
inductive Allows (f : Floor α ε) (m : Move α ε) (a : Answer α ε) : Op → Prop where
  | opening {o : Op} (hm : m.opensPort = true) (ho : o.opens = true) : Allows f m a o
  | post {p : PortId} {v : Value} (hm : m.post? = some (p, v)) : Allows f m a (.post p v)
  | close {p : PortId} (h : Move.closes p (m, a) = true) : Allows f m a (.closePort p)
  | shutdown (h : Move.shutsDown (m, a) = true) : Allows f m a .shutdown
  | reverse (hm : m.takesReverse = true) : Allows f m a (.receive Exchange.reversePort)
  | hold : Allows f m a .hold
  | release : Allows f m a .release
  | port {q : Place} {h : Handle α ε} {p : PortId} {o : Op} (hm : m.place? = some q)
      (hq : f.handle? q = some h) (hp : h.port? = some p) (ho : o.IsOn h.takes p) : Allows f m a o
  | slot {q : Place} {h : Handle α ε} {k : Ticket} {o : Op} (hm : m.place? = some q)
      (hq : f.handle? q = some h) (hk : h.ticket? = some k) (ho : o.Reads k) : Allows f m a o

def CallsHeld (f : Floor α ε) : Prop :=
  ∀ q h, f.handle? q = some h → h.isCall = true → f.session.dispatcher = true

structure Effect (f : Floor α ε) (m : Move α ε) (a : Answer α ε) (f' : Floor α ε)
    (ops : List Op) : Prop where
  runs : Runs ops f.exchange f'.exchange
  allowed : ∀ o ∈ ops, f.Allows m a o
  opens : ops.countP Op.opens ≤ m.opensPort.toNat
  posts : ops.countP Op.isPost = (f.livePost m).toNat
  kept : ∀ q h, m.place? ≠ some q → f.handle? q = some h → f'.handle? q = some h
  born : ∀ q h', f'.handle? q = some h' → f.handle? q = some h' ∨ h'.Fresh m f.exchange f'.exchange ∨
    ∃ q₀ h, m.place? = some q₀ ∧ f.handle? q₀ = some h ∧ h'.From h
  balance : f'.claims + ops.countP Op.isRelease = f.claims + ops.countP Op.isHold
  single : ops.countP Op.isRelease + ops.countP Op.isHold ≤ 1
  calls : f.CallsHeld → f'.CallsHeld

def Through (h : Handle α ε) (o : Op) : Prop :=
  (∃ p, h.port? = some p ∧ o.IsOn h.takes p) ∨ (∃ k, h.ticket? = some k ∧ o.Reads k) ∨ o = .release

section Through

variable {h : Handle α ε} {o : Op}

theorem Through.quiet (ho : Through h o) :
    o.opens = false ∧ o.isPost = false ∧ o.isHold = false := by
  rcases ho with ⟨p, -, ho⟩ | ⟨k, -, ho⟩ | rfl
  · cases o <;> first | exact ⟨rfl, rfl, rfl⟩ | exact ho.elim
  · cases o <;> first | exact ⟨rfl, rfl, rfl⟩ | exact ho.elim
  · exact ⟨rfl, rfl, rfl⟩

theorem Through.allowed {f : Floor α ε} {m : Move α ε} {a : Answer α ε} {q : Place}
    (hm : m.place? = some q) (hq : f.handle? q = some h) (ho : Through h o) : f.Allows m a o := by
  rcases ho with ⟨p, hp, ho⟩ | ⟨k, hk, ho⟩ | rfl
  · exact .port hm hq hp ho
  · exact .slot hm hq hk ho
  · exact .release

theorem countP_of_through {ops : List Op} {P : Op → Bool} (ho : ∀ o ∈ ops, Through h o)
    (hP : ∀ o, Through h o → P o = false) : ops.countP P = 0 := by
  rw [List.countP_eq_zero]
  intro o hmem
  simp [hP o (ho o hmem)]

end Through

theorem livePost_of_place? {f : Floor α ε} {m : Move α ε} {q : Place} (hm : m.place? = some q) :
    f.livePost m = false := by
  have hpost : m.post? = none := by
    unfold Move.place? at hm
    split at hm <;> first | rfl | cases hm
  rw [livePost, hpost]
  rfl

section Kinds

variable {f f' f₁ : Floor α ε} {m : Move α ε} {a : Answer α ε} {ops : List Op} {q q' : Place}
  {h h' : Handle α ε}

theorem dispatcher_of_table (ht : f'.table .dispatcher = f.table .dispatcher) :
    f'.session.dispatcher = f.session.dispatcher := by
  rw [table, table] at ht
  cases hd : f.session.dispatcher <;> cases hd' : f'.session.dispatcher <;> rw [hd, hd'] at ht <;>
    first | rfl | cases ht

theorem dispatcher_of_swap {h : Option (Handle α ε)} (hs : Swap q h f f')
    (hq : q.shelf ≠ .dispatcher) : f'.session.dispatcher = f.session.dispatcher := by
  have hd : f'.handle? ⟨.dispatcher, 0⟩ = f.handle? ⟨.dispatcher, 0⟩ :=
    hs.elsewhere fun he => hq (congrArg Place.shelf he).symm
  rw [handle?, handle?, table, table] at hd
  cases hb : f.session.dispatcher <;> cases hb' : f'.session.dispatcher <;> rw [hb, hb'] at hd <;>
    first | rfl | cases hd

theorem Effect.of_same (ht : ∀ s, f'.table s = f.table s) (hr : Runs ops f.exchange f'.exchange)
    (ha : ∀ o ∈ ops, f.Allows m a o) (ho : ops.countP Op.opens ≤ m.opensPort.toNat)
    (hp : ops.countP Op.isPost = (f.livePost m).toNat)
    (hn : ops.countP Op.isRelease = 0 ∧ ops.countP Op.isHold = 0) : Effect f m a f' ops where
  runs := hr
  allowed := ha
  opens := ho
  posts := hp
  kept q h _ hq := by
    rw [handle?, ht]
    exact hq
  born q h hq := by
    rw [handle?, ht] at hq
    exact .inl hq
  balance := by
    rw [hn.1, hn.2, claims, claims]
    simp only [ht]
  single := by omega
  calls hc q h hq hcall := by
    rw [handle?, ht] at hq
    rw [dispatcher_of_table (ht .dispatcher)]
    exact hc q h hq hcall

theorem Effect.of_used {h' : Option (Handle α ε)} (hm : m.place? = some q)
    (hq : f.handle? q = some h) (hs : Swap q h' f f') (hshelf : q.shelf ≠ .dispatcher)
    (hfrom : ∀ h₁, h' = some h₁ → h₁.From h)
    (hr : Runs ops f.exchange f'.exchange) (ho : ∀ o ∈ ops, Through h o)
    (hb : weight h' + ops.countP Op.isRelease = h.owns) (hsingle : ops.countP Op.isRelease ≤ 1) :
    Effect f m a f' ops where
  runs := hr
  allowed o hmem := (ho o hmem).allowed hm hq
  opens := by
    rw [countP_of_through ho fun o h => h.quiet.1]
    exact Nat.zero_le _
  posts := by
    rw [countP_of_through ho fun o h => h.quiet.2.1, livePost_of_place? hm]
    rfl
  kept q₁ h₁ hne hq₁ := by
    rw [hs.elsewhere fun he => hne (by rw [he, hm])]
    exact hq₁
  born q₁ h₁ hq₁ := by
    obtain hput | ⟨-, hold⟩ := hs.origin hq₁
    · exact .inr (.inr ⟨q, h, hm, hq, hfrom h₁ hput⟩)
    · exact .inl hold
  balance := by
    have hc := hs.claims
    rw [hq] at hc
    rw [countP_of_through ho fun o h => h.quiet.2.2]
    change f'.claims + h.owns = f.claims + weight h' at hc
    omega
  single := by
    rw [countP_of_through ho fun o h => h.quiet.2.2]
    exact hsingle
  calls hc q₁ h₁ hq₁ hcall := by
    rw [dispatcher_of_swap hs hshelf]
    obtain hput | ⟨-, hold⟩ := hs.origin hq₁
    · exact hc q h hq ((hfrom h₁ hput).call hcall)
    · exact hc q₁ h₁ hold hcall

theorem Effect.of_opened (hs : Swap q (some h') f f') (hq : f.handle? q = none)
    (hshelf : q.shelf ≠ .dispatcher) (hfresh : h'.Fresh m f.exchange f'.exchange)
    (hcall : h'.isCall = true → f.session.dispatcher = true)
    (hr : Runs ops f.exchange f'.exchange) (ha : ∀ o ∈ ops, f.Allows m a o)
    (ho : ops.countP Op.opens ≤ m.opensPort.toNat)
    (hp : ops.countP Op.isPost = (f.livePost m).toNat) (hn : ops.countP Op.isRelease = 0)
    (hb : h'.owns = ops.countP Op.isHold) (hsingle : ops.countP Op.isHold ≤ 1) :
    Effect f m a f' ops where
  runs := hr
  allowed := ha
  opens := ho
  posts := hp
  kept q₁ h₁ _ hq₁ := by
    rw [hs.elsewhere (ne_of_handle? hq hq₁)]
    exact hq₁
  born q₁ h₁ hq₁ := by
    obtain hput | ⟨-, hold⟩ := hs.origin hq₁
    · cases hput
      exact .inr (.inl hfresh)
    · exact .inl hold
  balance := by
    have hc := hs.claims
    rw [hq] at hc
    change f'.claims + 0 = f.claims + h'.owns at hc
    omega
  single := by omega
  calls hc q₁ h₁ hq₁ hcall₁ := by
    rw [dispatcher_of_swap hs hshelf]
    obtain hput | ⟨-, hold⟩ := hs.origin hq₁
    · cases hput
      exact hcall hcall₁
    · exact hc q₁ h₁ hold hcall₁

theorem not_opens_of_passed (ho : ∀ o ∈ ops, Through h o ∨ o = .hold) :
    ops.countP Op.opens = 0 ∧ ops.countP Op.isPost = 0 := by
  rw [List.countP_eq_zero, List.countP_eq_zero, ← forall_and]
  intro o
  rw [← forall_and]
  intro hmem
  rcases ho o hmem with ho | rfl
  · simp [ho.quiet]
  · simp [Op.opens, Op.isPost]

theorem Effect.of_passed (hm : m.place? = some q) (hq : f.handle? q = some h)
    (hs : Swap q none f f₁) (hq' : f₁.handle? q' = none) (hs' : Swap q' (some h') f₁ f')
    (hshelf : q.shelf ≠ .dispatcher ∧ q'.shelf ≠ .dispatcher) (hfrom : h'.From h)
    (hr : Runs ops f.exchange f'.exchange) (ho : ∀ o ∈ ops, Through h o ∨ o = .hold)
    (hb : h'.owns + ops.countP Op.isRelease = h.owns + ops.countP Op.isHold)
    (hsingle : ops.countP Op.isRelease + ops.countP Op.isHold ≤ 1) :
    Effect f m a f' ops where
  runs := hr
  allowed o hmem := by
    rcases ho o hmem with ho | rfl
    · exact ho.allowed hm hq
    · exact .hold
  opens := by
    rw [(not_opens_of_passed ho).1]
    exact Nat.zero_le _
  posts := by
    rw [(not_opens_of_passed ho).2, livePost_of_place? hm]
    rfl
  kept q₁ h₁ hne hq₁ := by
    have h₁' : f₁.handle? q₁ = some h₁ := by
      rw [hs.elsewhere fun he => hne (by rw [he, hm])]
      exact hq₁
    rw [hs'.elsewhere (ne_of_handle? hq' h₁')]
    exact h₁'
  born q₁ h₁ hq₁ := by
    obtain he | hold := origin_of_passed hs hs' hq₁
    · exact .inr (.inr ⟨q, h, hm, hq, he ▸ hfrom⟩)
    · exact .inl hold
  balance := by
    have hc := hs.claims
    have hc' := hs'.claims
    rw [hq] at hc
    rw [hq'] at hc'
    change f₁.claims + h.owns = f.claims + 0 at hc
    change f'.claims + 0 = f₁.claims + h'.owns at hc'
    omega
  single := hsingle
  calls hc q₁ h₁ hq₁ hcall₁ := by
    rw [dispatcher_of_swap hs' hshelf.2, dispatcher_of_swap hs hshelf.1]
    obtain he | hold := origin_of_passed hs hs' hq₁
    · exact hc q h hq ((he ▸ hfrom).call hcall₁)
    · exact hc q₁ h₁ hold hcall₁

end Kinds

end Floor

end CallExchange
