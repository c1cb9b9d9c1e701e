import CallExchange.Proofs.Exchange.Shut
import CallExchange.Proofs.Floor.Sound

set_option autoImplicit false

/-!
# What moves change

What a move may do to a slot and to an inbox, whatever its kind: by the operations that it may
perform.
-/

namespace CallExchange

variable {α ε : Type}

namespace Floor

variable {f f' : Floor α ε} {m : Move α ε} {a : Answer α ε} {ops : List Exchange.Op} {n : Nat}
  {p : PortId} {k : Ticket}

theorem Effect.no_posts (he : Effect f m a f' ops) (hm : f.livePost m = false) :
    ∀ o ∈ ops, o.isPost = false := by
  have hzero := he.posts
  rw [hm, Bool.toNat_false, List.countP_eq_zero] at hzero
  exact fun o ho => (Bool.not_eq_true _).mp (hzero o ho)

/-- A move that posts nothing leaves nothing new to be found. -/
theorem Effect.nothing_new (he : Effect f m a f' ops) (hs : f.Sound (m.opensPort.toNat + n))
    (hm : f.livePost m = false) :
    (∀ k v, f'.exchange.slot k = .ready v → f.exchange.slot k = .ready v) ∧
      ∀ p, (f'.exchange.inbox p).queue <:+ (f.exchange.inbox p).queue := by
  have hposts := he.no_posts hm
  exact ⟨fun k v => he.runs.ready_of_ready hs.consistent (he.fit hs) hposts,
    fun p => he.runs.queue_suffix hs.consistent (he.fit hs) hposts p⟩

theorem livePost_cases (f : Floor α ε) (m : Move α ε) :
    f.livePost m = false ∨ ∃ p v, m.post? = some (p, v) ∧ f.exchange.isGone = false := by
  unfold livePost
  cases hpost : m.post? with
  | none => exact .inl rfl
  | some d =>
    cases hgone : f.exchange.isGone with
    | true => exact .inl rfl
    | false => exact .inr ⟨d.1, d.2, rfl, rfl⟩

def UsesSlot (f : Floor α ε) (m : Move α ε) (k : Ticket) : Prop :=
  ∃ q h, m.place? = some q ∧ f.handle? q = some h ∧ h.ticket? = some k

def UsesInbox (f : Floor α ε) (m : Move α ε) (p : PortId) : Prop :=
  m.takesReverse = true ∧ p = Exchange.reversePort ∨
    ∃ q h, m.place? = some q ∧ f.handle? q = some h ∧ h.takes = true ∧ h.port? = some p

theorem Allows.usesInbox {o : Exchange.Op} (ha : f.Allows m a o) (ho : o.Takes p) :
    f.UsesInbox m p := by
  cases ha with
  | reverse hm => exact .inl ⟨hm, ho.symm⟩
  | port hm hq hp hon =>
    cases o with
    | receive | closeBroadcast =>
      refine .inr ⟨_, _, hm, hq, hon.1, ?_⟩
      rwa [← ho, show _ = _ from hon.2]
    | _ => exact ho.elim
  | opening _ hopens => cases o <;> first | exact ho.elim | cases hopens
  | slot _ _ _ hr => cases o <;> first | exact ho.elim | exact hr.elim
  | post | close | shutdown | hold | release => exact ho.elim

theorem Allows.sparesSlot {o : Exchange.Op} (ha : f.Allows m a o) (hk : ¬ f.UsesSlot m k) :
    o.SparesSlot k := by
  cases ha with
  | slot hm hq hj hr =>
    cases o with
    | read j r =>
      rintro rfl
      exact hk ⟨_, _, hm, hq, hr ▸ hj⟩
    | _ => exact hr.elim
  | opening _ hopens => cases o <;> first | exact trivial | cases hopens
  | port _ _ _ hon => cases o <;> first | exact trivial | exact hon.elim
  | post | close | shutdown | reverse | hold | release => exact trivial

end Floor

end CallExchange
