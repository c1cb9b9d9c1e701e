import CallExchange.Proofs.Floor.Turns

set_option autoImplicit false

/-!
# Sound floors

The invariant of a floor: its exchange is consistent, it has as many owners as there are handles
that own it, calls run only while the dispatcher handle is there, and there are numbers left for
the ports that are still to be opened. It holds at the start and every move keeps it.
-/

namespace CallExchange

open Exchange (Op Runs Fit)

variable {α ε : Type}

namespace Floor

/-- `n` more ports can be opened. -/
structure Sound (n : Nat) (f : Floor α ε) : Prop where
  consistent : f.exchange.Consistent
  owned : f.exchange.owners = f.claims
  calls : f.CallsHeld
  ports : ∀ q h p, f.handle? q = some h → h.port? = some p →
    f.exchange.Issued p ∧ p ≠ Exchange.reversePort
  tickets : ∀ q h k, f.handle? q = some h → h.ticket? = some k →
    k < f.exchange.pending.slots.length
  room : f.exchange.nextPort.raw.toInt + n < PortId.supply

variable {f f' : Floor α ε} {m : Move α ε} {a : Answer α ε} {ops : List Op} {n : Nat}
  {p : PortId} {k : Ticket}

theorem weight_le_total (l : List (Option (Handle α ε))) (i : Nat) :
    weight l[i]?.join ≤ total l := by
  by_cases hi : i < l.length
  · have ht := total_set l i none hi
    change _ = _ + 0 at ht
    omega
  · rw [List.getElem?_eq_none (Nat.le_of_not_lt hi)]
    exact Nat.zero_le _

theorem owns_le_claims {q : Place} {h : Handle α ε} (hq : f.handle? q = some h) :
    h.owns ≤ f.claims := by
  have hw := weight_le_total (f.table q.shelf) q.index
  have hqw : weight (f.table q.shelf)[q.index]?.join = h.owns := by
    rw [handle?] at hq
    rw [hq]
    rfl
  rw [hqw] at hw
  refine Nat.le_trans hw ?_
  unfold claims
  cases q.shelf <;> omega

theorem Sound.isGone (hs : f.Sound n) (hleft : 1 ≤ f.claims) : f.exchange.isGone = false := by
  have ho := hs.owned
  rw [Exchange.isGone, decide_eq_false_iff_not]
  omega

theorem Sound.hasRoom (hs : f.Sound (m.opensPort.toNat + n)) (hm : m.opensPort = true) :
    f.exchange.HasRoom := by
  have hroom := hs.room
  rw [hm, Bool.toNat_true] at hroom
  rw [Exchange.HasRoom]
  omega

namespace Effect

theorem fit (he : Effect f m a f' ops) (hs : f.Sound (m.opensPort.toNat + n)) :
    Fit ops f.exchange where
  room := by
    have hroom := hs.room
    have hopens := he.opens
    omega
  closing b hb := by
    cases he.allowed _ hb with
    | opening _ ho => cases ho
    | port _ hq hp ho => exact ho.2 ▸ (hs.ports _ _ _ hq hp).2
    | slot _ _ _ ho => exact ho.elim

theorem released_le (he : Effect f m a f' ops) (hs : f.Sound (m.opensPort.toNat + n)) :
    ops.countP Op.isRelease ≤ f.exchange.owners := by
  have hb := he.balance
  have h1 := he.single
  rw [hs.owned]
  omega

theorem sound (he : Effect f m a f' ops) (hs : f.Sound (m.opensPort.toNat + n)) : f'.Sound n where
  consistent := he.runs.consistent hs.consistent (he.fit hs)
  owned := by
    have ho := he.runs.owners_eq hs.consistent (he.fit hs) (he.released_le hs)
    have hb := he.balance
    have := hs.owned
    omega
  calls := he.calls hs.calls
  ports q h p hq hp := by
    have hg := he.runs.grows hs.consistent (he.fit hs)
    rcases he.born q h hq with hq | hfresh | ⟨q₀, h₀, -, hq₀, hfrom⟩
    · obtain ⟨hi, hr⟩ := hs.ports q h p hq hp
      exact ⟨hg.issued p hi, hr⟩
    · obtain ⟨hm, rfl, hnext⟩ := hfresh.port p hp
      exact ⟨Exchange.issued_new hs.consistent (hs.hasRoom hm) hnext, hs.consistent.next_ne_reverse⟩
    · obtain ⟨hi, hr⟩ := hs.ports q₀ h₀ p hq₀ (hfrom.port p hp)
      exact ⟨hg.issued p hi, hr⟩
  tickets q h k hq hk := by
    have hg := he.runs.grows hs.consistent (he.fit hs)
    rcases he.born q h hq with hq | hfresh | ⟨q₀, h₀, -, hq₀, hfrom⟩
    · exact Nat.lt_of_lt_of_le (hs.tickets q h k hq hk) hg.slots
    · obtain ⟨rfl, hlength⟩ := hfresh.ticket k hk
      rw [hlength]
      exact Nat.lt_succ_self _
    · exact Nat.lt_of_lt_of_le (hs.tickets q₀ h₀ k hq₀ (hfrom.ticket k hk)) hg.slots
  room := by
    have hn := he.runs.nextPort_le hs.consistent (he.fit hs)
    have hroom := hs.room
    have hopens := he.opens
    omega

/-- A move that neither posts to `p` nor tears it down nor uses a handle on it. -/
theorem spares (he : Effect f m a f' ops) (hp : p ≠ Exchange.reversePort)
    (hpost : ∀ v, m.post? ≠ some (p, v)) (htear : Move.tearsDown p (m, a) = false)
    (haside : ∀ q h, m.place? = some q → f.handle? q = some h → h.port? ≠ some p) :
    ∀ o ∈ ops, o.SparesPort p := by
  rw [Move.tearsDown, Bool.or_eq_false_iff] at htear
  intro o hmem
  cases he.allowed o hmem with
  | opening _ ho => cases o <;> trivial
  | @post p' v hm =>
    rintro rfl
    exact hpost v hm
  | @close p' hc =>
    rintro rfl
    rw [htear.2] at hc
    cases hc
  | shutdown hd =>
    rw [htear.1] at hd
    cases hd
  | reverse => exact hp.symm
  | hold => trivial
  | release => trivial
  | @port q h p' o hm hq hport ho =>
    have hne : p' ≠ p := by
      rintro rfl
      exact haside q h hm hq hport
    cases o with
    | closePort => exact fun he => hne (ho.symm.trans he)
    | receive | closeBroadcast => exact fun he => hne (ho.2.symm.trans he)
    | _ => exact ho.elim
  | slot hm hq hk ho =>
    cases o with
    | read => trivial
    | _ => exact ho.elim

theorem shared (he : Effect f m a f' ops) (hs : f.Sound (m.opensPort.toNat + n))
    (hleft : 1 ≤ f.claims ∧ 1 ≤ f'.claims) : ops.countP Op.isRelease < f.exchange.owners := by
  have hb := he.balance
  have h1 := he.single
  rw [hs.owned]
  omega

theorem samePort (he : Effect f m a f' ops) (hs : f.Sound (m.opensPort.toNat + n))
    (hp : f.exchange.Issued p) (hspares : ∀ o ∈ ops, o.SparesPort p)
    (hleft : 1 ≤ f.claims ∧ 1 ≤ f'.claims) : Exchange.SamePort p f.exchange f'.exchange :=
  he.runs.samePort hs.consistent (he.fit hs) hp hspares (he.shared hs hleft)

theorem sameSlot (he : Effect f m a f' ops) (hs : f.Sound (m.opensPort.toNat + n))
    (ht : Exchange.Tied p k f.exchange) (hspares : ∀ o ∈ ops, o.SparesPort p)
    (haside : ∀ q h, m.place? = some q → f.handle? q = some h → h.ticket? ≠ some k)
    (hleft : 1 ≤ f.claims ∧ 1 ≤ f'.claims) : f'.exchange.slot k = f.exchange.slot k := by
  refine he.runs.slot_eq hs.consistent (he.fit hs) ht hspares ?_ (he.shared hs hleft)
  intro o hmem
  cases he.allowed o hmem with
  | @slot q h j o hm hq hk ho =>
    cases o with
    | read j' r =>
      rintro rfl
      exact haside q h hm hq (ho ▸ hk)
    | _ => exact ho.elim
  | opening _ ho => cases o <;> trivial
  | port _ _ _ ho => cases o <;> trivial
  | _ => trivial

end Effect

/-- Every move of a sound floor has an effect. -/
theorem Sound.effect (hs : f.Sound n) (thread : Option String) (m : Move α ε) :
    ∃ ops, Effect f m (f.apply thread m).1 (f.apply thread m).2 ops := by
  refine apply_effect thread ?_ m
  intro hd
  rw [hs.owned]
  exact owns_le_claims (handle?_dispatcher hd)

theorem Sound.apply (hs : f.Sound (m.opensPort.toNat + n)) (thread : Option String) :
    (f.apply thread m).2.Sound n := by
  obtain ⟨ops, he⟩ := hs.effect thread m
  exact he.sound hs

theorem countP_opens_cons (m : Move α ε) (ms : List (Move α ε)) (n : Nat) :
    (m :: ms).countP Move.opensPort + n =
      m.opensPort.toNat + (ms.countP Move.opensPort + n) := by
  rw [List.countP_cons]
  cases m.opensPort
  · simp
  · simp
    omega

theorem countP_opens_append (ms ms' : List (Move α ε)) (n : Nat) :
    (ms ++ ms').countP Move.opensPort + n =
      ms.countP Move.opensPort + (ms'.countP Move.opensPort + n) := by
  rw [List.countP_append, Nat.add_assoc]

theorem run_append (thread : Option String) (ms ms' : List (Move α ε)) (f : Floor α ε) :
    run thread (ms ++ ms') f = run thread ms' (run thread ms f) := List.foldl_append

theorem history_append (thread : Option String) (ms ms' : List (Move α ε)) (f : Floor α ε) :
    history thread (ms ++ ms') f = history thread ms f ++ history thread ms' (run thread ms f) := by
  induction ms generalizing f with
  | nil => rfl
  | cons m ms ih => exact congrArg _ (ih _)

theorem Sound.run (thread : Option String) {ms : List (Move α ε)}
    (hs : f.Sound (ms.countP Move.opensPort + n)) : (run thread ms f).Sound n := by
  induction ms generalizing f with
  | nil =>
    rw [List.countP_nil, Nat.zero_add] at hs
    exact hs
  | cons m ms ih =>
    rw [countP_opens_cons] at hs
    exact ih (hs.apply thread)

theorem sound_start {s : Settings} {x : Exchange} (hx : Exchange.create s = .ok x)
    (hn : n + 1 < PortId.supply) : (start x : Floor α ε).Sound n where
  consistent := Exchange.consistent_create hx
  owned := by
    obtain ⟨c, -, rfl⟩ := Exchange.create_eq hx
    rfl
  calls := by
    intro q h hq hc
    obtain ⟨-, r, hr⟩ := running_of_handle? hq hc
    cases hr
  ports := by
    intro q h p hq hp
    obtain ⟨-, rfl⟩ := handle?_start hq
    cases hp
  tickets := by
    intro q h k hq hk
    obtain ⟨-, rfl⟩ := handle?_start hq
    cases hk
  room := by
    rw [show (start x : Floor α ε).exchange.nextPort = Exchange.reversePort.next from
      Exchange.nextPort_create hx]
    change 1 + (n : Int) < PortId.supply
    omega

end Floor

end CallExchange
