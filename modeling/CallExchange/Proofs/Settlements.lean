import CallExchange.Proofs.Completions
import Mathlib.Data.List.Perm.Basic

set_option autoImplicit false

/-!
# Settlements of a table

A port that leaves the table has its slot settled. An operation is told by how it settles the
ports: what it does to each slot, and whom it wakes, follows from that and from what was done to the
slots before.
-/

namespace CallExchange.Pending

open OneShot (Act Behaves Deed after deeds wakes wakesAfter)

variable {r r₁ r' : Pending} {p q : PortId} {k : Ticket} {s s₁ s₂ : PortId → Option (Option Value)}
  {act : Ticket → Option (Act Value)} {ws ws₁ ws₂ : List Waker}

def holder? (r : Pending) (k : Ticket) : Option PortId :=
  (r.waiting.find? fun e => e.2 == k).map Prod.fst

/-- What is done to the slot of `k` when every waiting port is settled as `s` says, if at all. -/
def settling (r : Pending) (s : PortId → Option (Option Value)) (k : Ticket) : Option (Act Value) :=
  ((r.holder? k).bind s).map .settle

def only (p : PortId) (v : Option Value) (q : PortId) : Option (Option Value) :=
  if q = p then some v else none

/-- Settles the ports that do not wait in `r'`, each with what it is given. -/
def leaving (given : PortId → Option Value) (r' : Pending) (p : PortId) : Option (Option Value) :=
  if r'.contains p then none else some (given p)

namespace Sound

theorem ticket?_of_holder? (hr : r.Sound) (h : r.holder? k = some p) : r.ticket? p = some k := by
  obtain ⟨e, he, rfl⟩ := Option.map_eq_some_iff.1 h
  have hk : e.2 = k := by simpa using List.find?_some he
  rw [ticket?, Lookup.lookup_eq_some_iff_mem hr.ports_nodup, ← hk]
  exact List.mem_of_find?_eq_some he

theorem holder?_of_ticket? (hr : r.Sound) (h : r.ticket? p = some k) : r.holder? k = some p := by
  cases hq : r.holder? k with
  | some q => rw [hr.tickets_inj q p k (hr.ticket?_of_holder? hq) h]
  | none =>
    have hmem := (Lookup.lookup_eq_some_iff_mem hr.ports_nodup).1 h
    have hne := List.find?_eq_none.1 (Option.map_eq_none_iff.1 hq) _ hmem
    exact absurd BEq.rfl hne

theorem holder?_eq_none (hr : r.Sound) (h : (r.slot k).isSettled = true) : r.holder? k = none := by
  cases hq : r.holder? k with
  | none => rfl
  | some q =>
    have hopen := hr.unsettled (hr.ticket?_of_holder? hq)
    rw [h] at hopen
    cases hopen

end Sound

theorem settling_of_holder? (h : r.holder? k = some p) :
    r.settling s k = (s p).map .settle := by
  rw [settling, h, Option.bind_some]

theorem settling_of_unheld (h : r.holder? k = none) : r.settling s k = none := by
  rw [settling, h]
  rfl

theorem settling_none (r : Pending) (k : Ticket) : r.settling (fun _ => none) k = none := by
  cases h : r.holder? k with
  | none => exact settling_of_unheld h
  | some p => exact settling_of_holder? h

/-- Only what is said of the waiting ports matters. -/
theorem settling_congr (hr : r.Sound) (h : ∀ p k, r.ticket? p = some k → s₁ p = s₂ p) (k : Ticket) :
    r.settling s₁ k = r.settling s₂ k := by
  cases hp : r.holder? k with
  | none => rw [settling_of_unheld hp, settling_of_unheld hp]
  | some p =>
    rw [settling_of_holder? hp, settling_of_holder? hp, h p k (hr.ticket?_of_holder? hp)]

theorem settling_leaving (hr : r.Sound) {given : PortId → Option Value}
    (h : ∀ p k, r.ticket? p = some k → r'.contains p = true) (k : Ticket) :
    r.settling (leaving given r') k = none :=
  (settling_congr hr (fun p k hp => if_pos (h p k hp)) k).trans (r.settling_none k)

/-- The ports that `s` settles leave the table, and for each of them its slot is settled and whoever
polled it last is woken. -/
structure Settles (s : PortId → Option (Option Value)) (r r' : Pending) (ws : List Waker) :
    Prop where
  sound : r'.Sound
  length : r'.slots.length = r.slots.length
  ticket : ∀ p, r'.ticket? p = if (s p).isSome then none else r.ticket? p
  slot : ∀ k, r'.slot k = after (r.settling s k).toList (r.slot k)
  woken : ws.Perm
    ((List.range r.slots.length).flatMap fun k => wakes (r.settling s k).toList (r.slot k))

namespace Settles

theorem refl (hr : r.Sound) : Settles (fun _ => none) r r [] := by
  refine ⟨hr, rfl, fun _ => rfl, fun k => ?_, ?_⟩
  · rw [settling_none]
    rfl
  · simp only [settling_none]
    exact .of_eq (List.flatMap_eq_nil_iff.2 fun _ _ => rfl).symm

theorem congr (hr : r.Sound) (h : ∀ p k, r.ticket? p = some k → s₁ p = s₂ p)
    (hs : Settles s₁ r r' ws) : Settles s₂ r r' ws := by
  have hsettling := settling_congr hr h
  refine ⟨hs.sound, hs.length, fun p => ?_, fun k => ?_, ?_⟩
  · rw [hs.ticket]
    cases hp : r.ticket? p with
    | none => rw [ite_self, ite_self]
    | some k => rw [h p k hp]
  · rw [hs.slot, hsettling]
  · simp only [← hsettling]
    exact hs.woken

/-- Who was settled is told by who does not wait any more. -/
theorem leaving (hr : r.Sound) {given : PortId → Option Value} (hs : Settles s r r' ws)
    (hgiven : ∀ p v, s p = some v → v = given p) : Settles (leaving given r') r r' ws := by
  refine hs.congr hr fun p k hp => ?_
  rw [Pending.leaving, contains_eq, hs.ticket]
  cases hsome : s p with
  | none =>
    rw [hp]
    rfl
  | some v =>
    rw [hgiven p v hsome]
    rfl

theorem holder? (hr : r.Sound) (hs : Settles s r r' ws) (k : Ticket) :
    r'.holder? k = (r.holder? k).bind fun p => if (s p).isSome then none else some p := by
  have hticket := hs.ticket
  cases hp : r.holder? k with
  | none =>
    rw [Option.bind_none]
    cases hq : r'.holder? k with
    | none => rfl
    | some q =>
      have hq := hs.sound.ticket?_of_holder? hq
      rw [hticket] at hq
      split at hq
      · cases hq
      · rw [hr.holder?_of_ticket? hq] at hp
        cases hp
  | some p =>
    have hpk := hr.ticket?_of_holder? hp
    rw [Option.bind_some]
    split
    · rename_i hsome
      cases hq : r'.holder? k with
      | none => rfl
      | some q =>
        have hqk := hs.sound.ticket?_of_holder? hq
        rw [hticket] at hqk
        split at hqk
        · cases hqk
        · rename_i hnone
          rw [hr.tickets_inj q p k hqk hpk] at hnone
          exact absurd hsome hnone
    · rename_i hnone
      exact hs.sound.holder?_of_ticket? (by rw [hticket, if_neg hnone, hpk])

theorem settling_or (hr : r.Sound) (hs : Settles s₁ r r₁ ws) (s₂ : PortId → Option (Option Value))
    (k : Ticket) : (r.settling (fun p => (s₁ p).or (s₂ p)) k).toList =
      (r.settling s₁ k).toList ++ (r₁.settling s₂ k).toList := by
  rw [settling, settling, settling, hs.holder? hr]
  cases r.holder? k with
  | none => rfl
  | some p =>
    rw [Option.bind_some, Option.bind_some, Option.bind_some]
    cases s₁ p <;> rfl

theorem trans (hr : r.Sound) (h₁ : Settles s₁ r r₁ ws₁) (h₂ : Settles s₂ r₁ r' ws₂) :
    Settles (fun p => (s₁ p).or (s₂ p)) r r' (ws₁ ++ ws₂) := by
  have hsettling := h₁.settling_or hr s₂
  refine ⟨h₂.sound, h₂.length.trans h₁.length, fun p => ?_, fun k => ?_, ?_⟩
  · rw [h₂.ticket, h₁.ticket]
    cases s₁ p with
    | none => rfl
    | some v => exact ite_self none
  · rw [hsettling, OneShot.after_append, h₂.slot, h₁.slot]
  · have hsecond := h₂.woken
    rw [h₁.length] at hsecond
    simp only [hsettling, OneShot.wakes_append, ← h₁.slot]
    exact (h₁.woken.append hsecond).trans (List.flatMap_append_perm ..)

end Settles

theorem flatMap_range_only {α : Type} {n k : Nat} (hk : k < n) (xs : List α) :
    ((List.range n).flatMap fun j => if j = k then xs else []) = xs := by
  induction n with
  | zero => exact absurd hk (Nat.not_lt_zero k)
  | succ n ih =>
    rw [List.range_succ, List.flatMap_append, List.flatMap_singleton]
    by_cases hn : n = k
    · subst hn
      have hnil : ((List.range n).flatMap fun j => if j = n then xs else []) = [] :=
        List.flatMap_eq_nil_iff.2 fun j hj => if_neg (Nat.ne_of_lt (List.mem_range.1 hj))
      rw [hnil, if_pos rfl, List.nil_append]
    · rw [if_neg hn, List.append_nil]
      exact ih (by omega)

theorem settling_only (hr : r.Sound) (hk : r.ticket? p = some k) (v : Option Value) (j : Ticket) :
    r.settling (only p v) j = if j = k then some (.settle v) else none := by
  split
  · rename_i hj
    rw [hj, settling_of_holder? (hr.holder?_of_ticket? hk), only, if_pos rfl]
    rfl
  · rename_i hj
    cases hq : r.holder? j with
    | none => exact settling_of_unheld hq
    | some q =>
      have hne : q ≠ p := by
        rintro rfl
        exact hj (Option.some.inj ((hr.ticket?_of_holder? hq).symm.trans hk))
      rw [settling_of_holder? hq, only, if_neg hne]
      rfl

theorem settles_retire (hr : r.Sound) (v : Option Value) {w : Option Waker}
    (h : r.retire? p (Act.settle v).exec = some (w, r')) : Settles (only p v) r r' w.toList := by
  obtain ⟨k, hk, hw, -⟩ := retire?_eq_some h
  have hsettling := settling_only hr hk v
  refine ⟨hr.retire (OneShot.isSettled_settle v) h, slots_retire_length h, fun q => ?_,
    fun j => ?_, ?_⟩
  · rw [ticket?_retire h, only]
    split <;> rfl
  · rw [slot_retire hr h hk, hsettling]
    split
    · rename_i hj
      rw [hj]
      rfl
    · rfl
  · have hwakes : ∀ j, wakes (r.settling (only p v) j).toList (r.slot j) =
        if j = k then w.toList else [] := by
      intro j
      rw [hsettling]
      split
      · rename_i hj
        rw [hj, hw]
        exact List.append_nil _
      · rfl
    simp only [hwakes]
    exact .of_eq (flatMap_range_only (hr.lt hk) _).symm

theorem settles_absent (hr : r.Sound) (v : Option Value) (h : r.ticket? p = none) :
    Settles (only p v) r r [] := by
  refine (Settles.refl hr).congr hr fun q k hq => ?_
  rw [only, if_neg]
  rintro rfl
  rw [h] at hq
  cases hq

theorem settles_giveUp (es : List (PortId × Ticket)) (ws : List Waker) (r : Pending) (hr : r.Sound)
    (hes : r.waiting = es) : ∃ ws', (es.foldl giveUp (ws, r)).1 = ws ++ ws' ∧
      Settles (fun _ => some none) r (es.foldl giveUp (ws, r)).2 ws' := by
  induction es generalizing ws r with
  | nil =>
    refine ⟨[], (List.append_nil ws).symm, (Settles.refl hr).congr hr fun p k hp => ?_⟩
    rw [ticket?, hes] at hp
    cases hp
  | cons e es ih =>
    obtain ⟨w, r₁, h, hes₁⟩ := cancel?_head hr hes
    have hfirst := settles_retire hr none h
    obtain ⟨ws', hws, hrest⟩ := ih (ws ++ w.toList) r₁ hfirst.sound hes₁
    have hstep : giveUp (ws, r) e = (ws ++ w.toList, r₁) := by simp only [giveUp, h]
    rw [List.foldl_cons, hstep]
    refine ⟨w.toList ++ ws', by rw [hws, List.append_assoc], ?_⟩
    refine (hfirst.trans hr hrest).congr hr fun p _ _ => ?_
    rw [only]
    split <;> rfl

theorem settles_abandonAll (hr : r.Sound) :
    Settles (fun _ => some none) r r.abandonAll.2 r.abandonAll.1 := by
  obtain ⟨ws, hws, hs⟩ := settles_giveUp r.waiting [] r hr rfl
  rw [abandonAll, hws]
  exact hs

/-- Each slot goes through its act, new slots are fresh, and exactly those are woken whom the acts
wake. -/
structure Steps (act : Ticket → Option (Act Value)) (r r' : Pending) (ws : List Waker) : Prop where
  sound : r'.Sound
  grows : r.slots.length ≤ r'.slots.length
  old : ∀ k < r.slots.length, r'.slot k = after (act k).toList (r.slot k)
  new : ∀ k, r.slots.length ≤ k → k < r'.slots.length → r'.slot k = .fresh
  woken : ws.Perm ((List.range r.slots.length).flatMap fun k => wakes (act k).toList (r.slot k))

theorem Settles.steps (hs : Settles s r r' ws)
    (hact : ∀ k < r.slots.length, act k = r.settling s k) : Steps act r r' ws := by
  refine ⟨hs.sound, Nat.le_of_eq hs.length.symm, fun k hk => ?_, fun k hk hk' => ?_,
    hs.woken.trans (.of_eq ?_)⟩
  · rw [hact k hk, hs.slot]
  · rw [hs.length] at hk'
    exact absurd hk' (Nat.not_lt.2 hk)
  · refine List.flatMap_congr fun k hk => ?_
    rw [hact k (List.mem_range.1 hk)]

theorem steps_register (hr : r.Sound) (h : r.register p = .ok (k, r'))
    (hact : ∀ j < r.slots.length, act j = none) : Steps act r r' [] := by
  have hslot := slot_register h
  have hk := (register_eq_ok h).2.2.1
  have hlength := slots_register_length h
  refine ⟨hr.register h, by omega, fun j hj => ?_, fun j hj hj' => ?_, .of_eq ?_⟩
  · rw [hslot, if_neg (hk ▸ Nat.ne_of_lt hj), hact j hj]
    rfl
  · rw [hlength] at hj'
    rw [hslot, if_pos (hk ▸ Nat.le_antisymm (Nat.le_of_lt_succ hj') hj)]
  · refine (List.flatMap_eq_nil_iff.2 fun j hj => ?_).symm
    rw [hact j (List.mem_range.1 hj)]
    rfl

theorem steps_read (how : OneShot.Read) (hs : Settles s (r.read k how).2 r' ws)
    (hkept : r.settling s k = none)
    (hact : ∀ j < r.slots.length, act j = if j = k then some (.read how) else r.settling s j) :
    Steps act r r' ws := by
  have hlength : (r.read k how).2.slots.length = r.slots.length := r.slots_setSlot_length k _
  have hslot : ∀ j < r.slots.length,
      (r.read k how).2.slot j = if j = k then (how.run (r.slot k)).2 else r.slot j := by
    intro j hj
    split
    · rename_i hjk
      subst hjk
      exact (r.slot_setSlot j j _ hj).trans (if_pos rfl)
    · rename_i hjk
      exact r.slot_setSlot_ne _ hjk
  refine ⟨hs.sound, Nat.le_of_eq (hlength.symm.trans hs.length.symm), fun j hj => ?_,
    fun j hj hj' => ?_,
    hs.woken.trans (.of_eq ?_)⟩
  · have hsettled : r'.slot j = after (r.settling s j).toList ((r.read k how).2.slot j) := hs.slot j
    rw [hsettled, hslot j hj, hact j hj]
    split
    · rename_i hjk
      rw [hjk, hkept]
      rfl
    · rfl
  · rw [hs.length, hlength] at hj'
    exact absurd hj' (Nat.not_lt.2 hj)
  · rw [hlength]
    refine List.flatMap_congr fun j hj => ?_
    have hj := List.mem_range.1 hj
    change wakes (r.settling s j).toList _ = _
    rw [hslot j hj, hact j hj]
    split
    · rename_i hjk
      rw [hjk, hkept]
      rfl
    · rfl

end CallExchange.Pending
