import CallExchange.Pending
import CallExchange.Proofs.Lookup

set_option autoImplicit false

/-!
# Tickets and slots

A table of pending deliveries is seen through two views: the ticket of a port, and the slot of a
ticket. In a sound table the ports that wait are exactly those whose slots are not settled.
-/

namespace CallExchange

namespace OneShot

variable {α : Type}

theorem isSettled_complete (v : α) (s : OneShot α) : (s.complete v).1.isSettled = true := by
  cases s <;> rfl

theorem isSettled_abandon (s : OneShot α) : s.abandon.1.isSettled = true := by
  cases s <;> rfl

theorem abandon_of_isSettled (s : OneShot α) (h : s.isSettled = true) : s.abandon.1 = s := by
  rw [abandon, settle_of_isSettled s _ h]

theorem Read.isSettled_run (r : Read) (s : OneShot α) :
    (r.run s).2.isSettled = s.isSettled := by
  cases r with
  | isSettled => rfl
  | tryTake => cases s <;> rfl
  | poll w => cases s <;> rfl
  | wait => cases s <;> rfl
  | waitTimeout t =>
    simp only [run, takeWithin]
    split
    · rfl
    · rename_i h
      split at h
      · cases h
      · cases h
        cases s <;> rfl
  | drop => rfl

end OneShot

namespace Pending

theorem contains_eq (r : Pending) (p : PortId) : r.contains p = (r.ticket? p).isSome := by
  rw [Bool.eq_iff_iff, ticket?, Lookup.lookup_isSome_iff_mem, contains, List.any_eq_true]
  simp only [beq_iff_eq, List.mem_map]

theorem slot_setSlot (r : Pending) (k j : Ticket) (s : OneShot Value)
    (hk : k < r.slots.length) :
    (r.setSlot k s).slot j = if j = k then s else r.slot j := by
  simp only [slot, setSlot, List.getD_eq_getElem?_getD, List.getElem?_set]
  by_cases h : k = j
  · subst h
    simp [hk]
  · simp [h, Ne.symm h]

theorem slot_setSlot_ne (r : Pending) {k j : Ticket} (s : OneShot Value) (h : j ≠ k) :
    (r.setSlot k s).slot j = r.slot j := by
  simp only [slot, setSlot, List.getD_eq_getElem?_getD, List.getElem?_set_ne h.symm]

theorem setSlot_slot (r : Pending) (k : Ticket) : r.setSlot k (r.slot k) = r := by
  have hslots : r.slots.set k (r.slot k) = r.slots := by
    by_cases hk : k < r.slots.length
    · rw [slot, List.getD_eq_getElem?_getD, List.getElem?_eq_getElem hk, Option.getD_some,
        List.set_getElem_self]
    · exact List.set_eq_of_length_le (Nat.le_of_not_lt hk)
  rw [setSlot, hslots]

theorem slots_setSlot_length (r : Pending) (k : Ticket) (s : OneShot Value) :
    (r.setSlot k s).slots.length = r.slots.length := by
  simp [setSlot]

theorem lt_of_unsettled (r : Pending) (k : Ticket) (h : (r.slot k).isSettled = false) :
    k < r.slots.length := by
  by_contra hk
  rw [slot, List.getD_eq_getElem?_getD, List.getElem?_eq_none (Nat.le_of_not_lt hk)] at h
  exact Bool.noConfusion h

/-- The waiting ports are those whose slots are not settled, each with a ticket of its own. -/
structure Sound (r : Pending) : Prop where
  ports_nodup : (r.waiting.map Prod.fst).Nodup
  tickets_inj : ∀ p q k, r.ticket? p = some k → r.ticket? q = some k → p = q
  unsettled_iff : ∀ k, (r.slot k).isSettled = false ↔ ∃ p, r.ticket? p = some k

namespace Sound

variable {r r' : Pending} {p : PortId} {k : Ticket}

theorem unsettled (h : r.Sound) (hp : r.ticket? p = some k) : (r.slot k).isSettled = false :=
  (h.unsettled_iff k).2 ⟨p, hp⟩

theorem lt (h : r.Sound) (hp : r.ticket? p = some k) : k < r.slots.length :=
  r.lt_of_unsettled k (h.unsettled hp)

end Sound

theorem empty_sound (limit : UInt64) : (empty limit).Sound where
  ports_nodup := List.nodup_nil
  tickets_inj := by
    intro p q k hp
    cases hp
  unsettled_iff := by
    intro k
    constructor
    · intro h
      exact absurd ((empty limit).lt_of_unsettled k h) (Nat.not_lt_zero k)
    · rintro ⟨p, hp⟩
      cases hp

theorem register_eq_ok {r r' : Pending} {p : PortId} {k : Ticket}
    (h : r.register p = .ok (k, r')) :
    r.size < r.limit.toNat ∧ r.ticket? p = none ∧ k = r.slots.length ∧
      r' = { r with
        waiting := r.waiting ++ [(p, r.slots.length)], slots := r.slots ++ [.fresh] } := by
  rw [register] at h
  split at h
  · cases h
  · rename_i hsize
    split at h
    · cases h
    · rename_i hp
      rw [contains_eq, Bool.not_eq_true, Option.isSome_eq_false_iff,
        Option.isNone_iff_eq_none] at hp
      cases h
      exact ⟨by omega, hp, rfl, rfl⟩

section Register

variable {r r' : Pending} {p : PortId} {k : Ticket}

theorem ticket?_register (h : r.register p = .ok (k, r')) (q : PortId) :
    r'.ticket? q = if q = p then some k else r.ticket? q := by
  obtain ⟨-, hp, rfl, rfl⟩ := register_eq_ok h
  rw [ticket?, Lookup.lookup_concat]
  by_cases hq : q = p
  · subst hq
    rw [show r.waiting.lookup q = none from hp]
    simp
  · simp [hq, ticket?]

theorem slot_register (h : r.register p = .ok (k, r')) (j : Ticket) :
    r'.slot j = if j = k then .fresh else r.slot j := by
  obtain ⟨-, -, rfl, rfl⟩ := register_eq_ok h
  simp only [slot, List.getD_eq_getElem?_getD]
  by_cases hj : j = r.slots.length
  · subst hj
    simp
  · rcases Nat.lt_or_gt_of_ne hj with hlt | hgt
    · rw [List.getElem?_append_left hlt]
      simp [hj]
    · rw [List.getElem?_eq_none (by simp; omega), List.getElem?_eq_none (by omega)]
      simp [hj]

theorem slots_register_length (h : r.register p = .ok (k, r')) :
    r'.slots.length = r.slots.length + 1 := by
  obtain ⟨-, -, -, rfl⟩ := register_eq_ok h
  simp

theorem Sound.register (hr : r.Sound) (h : r.register p = .ok (k, r')) : r'.Sound := by
  have hk : k = r.slots.length := (register_eq_ok h).2.2.1
  have hticket := ticket?_register h
  have hslot := slot_register h
  have hold : ∀ {q}, r.ticket? q ≠ some k := by
    intro q hq
    exact absurd (hr.lt hq) (by rw [hk]; exact Nat.lt_irrefl _)
  refine ⟨?_, ?_, ?_⟩
  · obtain ⟨-, hp, -, rfl⟩ := register_eq_ok h
    exact Lookup.nodup_keys_concat hr.ports_nodup _ hp
  · intro q q' j hq hq'
    rw [hticket] at hq hq'
    split at hq <;> split at hq'
    · simp_all
    · cases hq
      exact absurd hq' hold
    · cases hq'
      exact absurd hq hold
    · exact hr.tickets_inj q q' j hq hq'
  · intro j
    rw [hslot]
    by_cases hj : j = k
    · subst hj
      simp only [if_true]
      exact iff_of_true rfl ⟨p, by simp [hticket]⟩
    · rw [if_neg hj, hr.unsettled_iff]
      constructor
      · rintro ⟨q, hq⟩
        refine ⟨q, ?_⟩
        have hne : q ≠ p := by
          rintro rfl
          rw [(register_eq_ok h).2.1] at hq
          cases hq
        rw [hticket, if_neg hne, hq]
      · rintro ⟨q, hq⟩
        rw [hticket] at hq
        split at hq
        · cases hq
          exact absurd rfl hj
        · exact ⟨q, hq⟩

end Register

theorem retire?_eq_none_iff {r : Pending} {p : PortId}
    {f : OneShot Value → OneShot Value × Option Waker} :
    r.retire? p f = none ↔ r.ticket? p = none := by
  simp [retire?]

theorem retire?_eq_some {r r' : Pending} {p : PortId} {w : Option Waker}
    {f : OneShot Value → OneShot Value × Option Waker} (h : r.retire? p f = some (w, r')) :
    ∃ k, r.ticket? p = some k ∧ w = (f (r.slot k)).2 ∧
      r' = { (r.setSlot k (f (r.slot k)).1) with
        waiting := r.waiting.filter fun e => !(e.1 == p) } := by
  rw [retire?, Option.map_eq_some_iff] at h
  obtain ⟨k, hk, he⟩ := h
  cases he
  exact ⟨k, hk, rfl, rfl⟩

section Retire

variable {r r' : Pending} {p : PortId} {w : Option Waker}
  {f : OneShot Value → OneShot Value × Option Waker}

theorem ticket?_retire (h : r.retire? p f = some (w, r')) (q : PortId) :
    r'.ticket? q = if q = p then none else r.ticket? q := by
  obtain ⟨k, -, -, rfl⟩ := retire?_eq_some h
  exact Lookup.lookup_without r.waiting p q

theorem slot_retire (hr : r.Sound) (h : r.retire? p f = some (w, r')) {k : Ticket}
    (hk : r.ticket? p = some k) (j : Ticket) :
    r'.slot j = if j = k then (f (r.slot k)).1 else r.slot j := by
  obtain ⟨k', hk', -, rfl⟩ := retire?_eq_some h
  cases hk.symm.trans hk'
  exact r.slot_setSlot k j _ (hr.lt hk)

theorem slot_retire_ne (h : r.retire? p f = some (w, r')) {j : Ticket}
    (hj : r.ticket? p ≠ some j) : r'.slot j = r.slot j := by
  obtain ⟨k, hk, -, rfl⟩ := retire?_eq_some h
  exact r.slot_setSlot_ne _ (fun he => hj (he ▸ hk))

theorem slots_retire_length (h : r.retire? p f = some (w, r')) :
    r'.slots.length = r.slots.length := by
  obtain ⟨k, -, -, rfl⟩ := retire?_eq_some h
  exact r.slots_setSlot_length k _

theorem Sound.retire (hr : r.Sound) (hf : ∀ s, (f s).1.isSettled = true)
    (h : r.retire? p f = some (w, r')) : r'.Sound := by
  obtain ⟨k, hk, -, -⟩ := retire?_eq_some h
  have hticket := ticket?_retire h
  have hslot := slot_retire hr h hk
  refine ⟨?_, ?_, ?_⟩
  · obtain ⟨_, -, -, rfl⟩ := retire?_eq_some h
    exact Lookup.nodup_keys_without hr.ports_nodup p
  · intro q q' j hq hq'
    rw [hticket] at hq hq'
    split at hq
    · cases hq
    · split at hq'
      · cases hq'
      · exact hr.tickets_inj q q' j hq hq'
  · intro j
    rw [hslot]
    by_cases hj : j = k
    · subst hj
      simp only [if_true, hf, Bool.true_eq_false, false_iff, not_exists]
      intro q hq
      rw [hticket] at hq
      split at hq
      · cases hq
      · rename_i hne
        exact hne (hr.tickets_inj q p j hq hk)
    · rw [if_neg hj, hr.unsettled_iff]
      constructor
      · rintro ⟨q, hq⟩
        have hne : q ≠ p := by
          rintro rfl
          exact hj (Option.some.inj (hq.symm.trans hk))
        exact ⟨q, by rw [hticket, if_neg hne, hq]⟩
      · rintro ⟨q, hq⟩
        rw [hticket] at hq
        split at hq
        · cases hq
        · exact ⟨q, hq⟩

end Retire

theorem Sound.setSlot {r : Pending} (hr : r.Sound) {k : Ticket} {s : OneShot Value}
    (hs : s.isSettled = (r.slot k).isSettled) : (r.setSlot k s).Sound where
  ports_nodup := hr.ports_nodup
  tickets_inj := hr.tickets_inj
  unsettled_iff := by
    intro j
    have hj : ((r.setSlot k s).slot j).isSettled = (r.slot j).isSettled := by
      by_cases hjk : j = k
      · subst hjk
        by_cases hlt : j < r.slots.length
        · rw [r.slot_setSlot j j s hlt, if_pos rfl, hs]
        · rw [Pending.setSlot, List.set_eq_of_length_le (Nat.le_of_not_lt hlt)]
      · rw [r.slot_setSlot_ne s hjk]
    rw [hj]
    exact hr.unsettled_iff j

theorem cancel?_head {r : Pending} (hr : r.Sound) {e : PortId × Ticket}
    {es : List (PortId × Ticket)} (hes : r.waiting = e :: es) :
    ∃ w r', r.cancel? e.1 = some (w, r') ∧ r'.waiting = es := by
  have hk : r.ticket? e.1 = some e.2 := by
    rw [ticket?, hes, List.lookup_cons_self]
  cases h : r.cancel? e.1 with
  | none => simp [retire?_eq_none_iff.1 h] at hk
  | some a =>
    refine ⟨a.1, a.2, rfl, ?_⟩
    obtain ⟨k, -, -, hr'⟩ := retire?_eq_some h
    have hn := hr.ports_nodup
    rw [hes, List.map_cons, List.nodup_cons] at hn
    rw [hr', hes]
    change (e :: es).filter (fun e' => !(e'.1 == e.1)) = es
    rw [List.filter_cons_of_neg (by simp), List.filter_eq_self]
    intro e' he'
    have hne : e'.1 ≠ e.1 := fun h => hn.1 (h ▸ List.mem_map_of_mem he')
    simpa using hne

/-- Giving up whoever waits, one after the other, empties the table and abandons what was not
settled. -/
theorem giveUp_foldl (es : List (PortId × Ticket)) (ws : List Waker) (r : Pending) (hr : r.Sound)
    (hes : r.waiting = es) :
    (es.foldl giveUp (ws, r)).2.Sound ∧ (es.foldl giveUp (ws, r)).2.waiting = [] ∧
      (es.foldl giveUp (ws, r)).2.slots.length = r.slots.length ∧
      ∀ j, (es.foldl giveUp (ws, r)).2.slot j = (r.slot j).abandon.1 := by
  induction es generalizing ws r with
  | nil =>
    refine ⟨hr, hes, rfl, ?_⟩
    intro j
    -- with nobody waiting every slot is settled
    have hj : (r.slot j).isSettled = true := by
      rw [← Bool.not_eq_false, hr.unsettled_iff]
      rintro ⟨p, hp⟩
      simp [ticket?, hes] at hp
    exact ((r.slot j).abandon_of_isSettled hj).symm
  | cons e es ih =>
    obtain ⟨w, r₁, h, hes₁⟩ := cancel?_head hr hes
    obtain ⟨k, hk, -, -⟩ := retire?_eq_some h
    have hr₁ : r₁.Sound := hr.retire OneShot.isSettled_abandon h
    obtain ⟨hs, hw, hl, hj⟩ := ih (ws ++ w.toList) r₁ hr₁ hes₁
    have hstep : giveUp (ws, r) e = (ws ++ w.toList, r₁) := by simp only [giveUp, h]
    rw [List.foldl_cons, hstep]
    refine ⟨hs, hw, hl.trans (slots_retire_length h), ?_⟩
    intro j
    rw [hj, slot_retire hr h hk]
    by_cases hjk : j = k
    · subst hjk
      rw [if_pos rfl, OneShot.abandon_of_isSettled _ (OneShot.isSettled_abandon _)]
    · rw [if_neg hjk]

theorem abandonAll_eq {r : Pending} (hr : r.Sound) :
    r.abandonAll.2.Sound ∧ r.abandonAll.2.waiting = [] ∧
      r.abandonAll.2.slots.length = r.slots.length ∧
      ∀ j, r.abandonAll.2.slot j = (r.slot j).abandon.1 :=
  giveUp_foldl r.waiting [] r hr rfl

end Pending

end CallExchange
