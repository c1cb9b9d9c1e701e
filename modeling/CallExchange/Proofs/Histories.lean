import CallExchange.Proofs.Settlements
import Mathlib.Data.List.GetD

set_option autoImplicit false

/-!
# Histories of a table

Whoever owns a table of pending deliveries does at most one thing to a slot in each move. The acts
since a ticket was issued are the history of its slot: they tell what every read finds, and whom
every later move wakes.
-/

namespace CallExchange.Pending

open OneShot (Act Behaves Deed after deeds wakes wakesAfter)

def Wakes (history : Ticket → List (Deed Value)) (act : Ticket → Option (Act Value)) (r : Pending)
    (ws : List Waker) : Prop :=
  ws.Perm ((List.range r.slots.length).flatMap fun k => ((act k).bind (wakesAfter (history k))).toList)

theorem Steps.wakes {history : Ticket → List (Deed Value)} {act : Ticket → Option (Act Value)}
    {r r' : Pending} {ws : List Waker} (hs : Steps act r r' ws)
    (hh : ∀ k < r.slots.length, Behaves (history k) (r.slot k)) : Wakes history act r ws := by
  refine hs.woken.trans (.of_eq (List.flatMap_congr fun k hk => ?_))
  have hwakes := (hh k (List.mem_range.1 hk)).wakes
  cases act k with
  | none => rfl
  | some a =>
    rw [Option.bind_some, ← hwakes a]
    exact List.append_nil _

section Issuing

variable {r r' : Pending} {p : PortId} {k : Ticket} {l : List (Option Ticket)}

def Issues (r : Pending) (l : List (Option Ticket)) : Prop :=
  ∀ (n : Nat) (k : Ticket), l[n]?.join = some k → k < r.slots.length

theorem issues_nil (r : Pending) : r.Issues [] := fun _ _ hk => by cases hk

namespace Issues

theorem grows (hi : r.Issues l) (h : r.slots.length ≤ r'.slots.length) : r'.Issues l :=
  fun n k hk => Nat.lt_of_lt_of_le (hi n k hk) h

theorem register (hi : r.Issues l) (h : r.register p = .ok (k, r')) :
    r'.Issues (l ++ [some k]) := by
  intro n j hj
  have hlength := slots_register_length h
  rcases Lookup.join_concat hj with hold | rfl
  · exact hlength ▸ Nat.lt_succ_of_lt (hi n j hold)
  · rw [hlength, (register_eq_ok h).2.2.1]
    exact Nat.lt_succ_self _

theorem after_read (hi : r.Issues l) (gone : Bool) (n : Nat) :
    r.Issues (if gone then l.set n none else l) := by
  split
  · exact fun i k hk => hi i k (Lookup.join_set_none hk)
  · exact hi

end Issues

end Issuing

/-- The owner of a table, by what its moves do: to itself, to those who are woken, and to the slot
of a ticket. -/
structure Owner (σ μ : Type) where
  table : σ → Pending
  next : σ → μ → σ
  woken : σ → μ → List Waker
  act : σ → μ → Ticket → Option (Act Value)

namespace Owner

variable {σ μ : Type} (o : Owner σ μ)

def run (ms : List μ) (a : σ) : σ := ms.foldl o.next a

/-- What has been done to the slot of `k` since the ticket was issued. -/
def trail : List μ → σ → Ticket → List (Act Value)
  | [], _, _ => []
  | m :: ms, a, k =>
    (if k < (o.table a).slots.length then (o.act a m k).toList else []) ++ trail ms (o.next a m) k

def history (ms : List μ) (a : σ) (k : Ticket) : List (Deed Value) := deeds (o.trail ms a k) .fresh

/-- Every move does its acts to the slots, and nothing else. -/
def Faithful : Prop :=
  ∀ a m, (o.table a).Sound → Steps (o.act a m) (o.table a) (o.table (o.next a m)) (o.woken a m)

/-- The histories tell what the slots are and whom each further move wakes; a slot is open as long
as a port waits with its ticket, and once settled it stays so. -/
structure Told (ms : List μ) (a : σ) : Prop where
  behaves : ∀ k < (o.table (o.run ms a)).slots.length,
    Behaves (o.history ms a k) ((o.table (o.run ms a)).slot k)
  stays : ∀ ms' k, k < (o.table (o.run ms a)).slots.length →
    ((o.table (o.run ms a)).slot k).isSettled = true →
    ((o.table (o.run ms' (o.run ms a))).slot k).isSettled = true
  waits : ∀ k, ((o.table (o.run ms a)).slot k).isSettled = false ↔
    ∃ p, (o.table (o.run ms a)).ticket? p = some k
  wakes : ∀ m, Wakes (o.history ms a) (o.act (o.run ms a) m) (o.table (o.run ms a))
    (o.woken (o.run ms a) m)

variable {o} {a : σ}

theorem Faithful.sound_run (ho : o.Faithful) (ms : List μ) (ha : (o.table a).Sound) :
    (o.table (o.run ms a)).Sound := by
  induction ms generalizing a with
  | nil => exact ha
  | cons m ms ih => exact ih (ho a m ha).sound

theorem slot_of_lt {r : Pending} {k : Ticket} (hk : k < r.slots.length) :
    r.slots.getD k .fresh = r.slot k := by
  rw [Pending.slot, List.getD_eq_getElem _ _ hk, List.getD_eq_getElem _ _ hk]

/-- A slot goes through the acts of its trail, from when it is issued. -/
theorem Faithful.slots_run (ho : o.Faithful) (ms : List μ) (ha : (o.table a).Sound) (k : Ticket) :
    (o.table (o.run ms a)).slots.getD k .fresh =
      after (o.trail ms a k) ((o.table a).slots.getD k .fresh) := by
  induction ms generalizing a with
  | nil => rfl
  | cons m ms ih =>
    have hsteps := ho a m ha
    have hrest := ih hsteps.sound
    have hfirst : (o.table (o.next a m)).slots.getD k .fresh =
        after (if k < (o.table a).slots.length then (o.act a m k).toList else [])
          ((o.table a).slots.getD k .fresh) := by
      split
      · rename_i hk
        rw [slot_of_lt hk, slot_of_lt (Nat.lt_of_lt_of_le hk hsteps.grows), hsteps.old k hk]
      · rename_i hk
        have hk := Nat.le_of_not_lt hk
        rw [List.getD_eq_default _ _ hk]
        by_cases hnew : k < (o.table (o.next a m)).slots.length
        · rw [slot_of_lt hnew, hsteps.new k hk hnew]
          rfl
        · exact List.getD_eq_default _ _ (Nat.le_of_not_lt hnew)
    rw [hfirst, ← OneShot.after_append] at hrest
    exact hrest

theorem Faithful.stays (ho : o.Faithful) (ms : List μ) (ha : (o.table a).Sound) {k : Ticket}
    (hk : k < (o.table a).slots.length) (hs : ((o.table a).slot k).isSettled = true) :
    ((o.table (o.run ms a)).slot k).isSettled = true := by
  by_contra hopen
  have hlt := lt_of_unsettled _ k (Bool.eq_false_iff.2 hopen)
  have hslot := ho.slots_run ms ha k
  rw [slot_of_lt hk, slot_of_lt hlt] at hslot
  rw [hslot] at hopen
  exact hopen (OneShot.isSettled_after _ hs)

theorem Faithful.told (ho : o.Faithful) (ms : List μ) (ha : (o.table a).Sound)
    (hempty : (o.table a).slots = []) : o.Told ms a := by
  have hsound := ho.sound_run ms ha
  have hbehaves : ∀ k < (o.table (o.run ms a)).slots.length,
      Behaves (o.history ms a k) ((o.table (o.run ms a)).slot k) := by
    intro k hk
    have hslot := ho.slots_run ms ha k
    rw [slot_of_lt hk, hempty] at hslot
    rw [hslot]
    exact OneShot.behaves_after _
  exact ⟨hbehaves, fun ms' k => ho.stays ms' hsound, hsound.unsettled_iff,
    fun m => (ho _ m hsound).wakes hbehaves⟩

end Owner

namespace Held

def Command.settles : Command → PortId → Option (Option Value)
  | .resolve p v => only p (some v)
  | .cancel p => only p none
  | .abandonAll => fun _ => some none
  | _ => fun _ => none

def act (h : Held) (c : Command) (k : Ticket) : Option (Act Value) :=
  match c with
  | .read n how => if h.handles[n]?.join = some k then some (.read how) else none
  | c => h.table.settling c.settles k

def owner : Owner Held Command where
  table := Held.table
  next h c := (h.apply c).2.2
  woken h c := (h.apply c).2.1
  act := act

/-- A command that neither registers nor reads settles ports, and does nothing else. -/
theorem settles_apply {h : Held} (hr : h.table.Sound) {c : Command}
    (hregister : ∀ p, c ≠ .register p) (hread : ∀ n how, c ≠ .read n how) :
    Settles c.settles h.table (h.apply c).2.2.table (h.apply c).2.1 := by
  cases c with
  | register p => exact absurd rfl (hregister p)
  | read n how => exact absurd rfl (hread n how)
  | resolve p v =>
    rw [apply]
    cases hret : h.table.resolve? p v with
    | none => exact settles_absent hr _ (retire?_eq_none_iff.1 hret)
    | some a => exact settles_retire hr (some v) hret
  | cancel p =>
    rw [apply]
    cases hret : h.table.cancel? p with
    | none => exact settles_absent hr _ (retire?_eq_none_iff.1 hret)
    | some a => exact settles_retire hr none hret
  | abandonAll => exact settles_abandonAll hr
  | contains p => exact .refl hr
  | isEmpty => exact .refl hr

theorem faithful : owner.Faithful := by
  intro h c hr
  change Steps (h.act c) h.table (h.apply c).2.2.table (h.apply c).2.1
  have hsame : ∀ act : Ticket → Option (Act Value), (∀ k, act k = none) →
      Steps act h.table h.table [] := fun act hact =>
    (Settles.refl hr).steps fun k _ => by rw [hact, settling_none]
  have hnone : ∀ k, h.table.settling (fun _ => none) k = none := h.table.settling_none
  cases c with
  | register p =>
    rw [apply]
    cases hreg : h.table.register p with
    | error f => exact hsame _ hnone
    | ok a => exact steps_register hr hreg fun k _ => hnone k
  | read n how =>
    rw [apply, readHandle]
    cases hk : h.handles[n]?.join with
    | none =>
      refine hsame _ fun j => ?_
      rw [act, hk]
      exact if_neg nofun
    | some k =>
      have hread : (h.table.read k how).2.Sound := hr.setSlot (how.isSettled_run _)
      refine steps_read how (.refl hread) (h.table.settling_none k) fun j _ => ?_
      rw [act, hk, settling_none]
      by_cases hj : j = k
      · rw [if_pos hj, if_pos (by rw [hj])]
      · rw [if_neg hj, if_neg fun he => hj (Option.some.inj he).symm]
  | resolve | cancel | abandonAll | contains | isEmpty =>
    refine Settles.steps (settles_apply hr ?_ ?_) fun _ _ => rfl
    · nofun
    · nofun

theorem apply_read {h : Held} {n : Nat} {k : Ticket} (hk : h.handles[n]?.join = some k)
    (how : OneShot.Read) : (h.apply (.read n how)).1 = .read (how.run (h.table.slot k)).1 := by
  rw [apply, readHandle, hk]
  rfl

theorem handles_apply (h : Held) {c : Command} (hregister : ∀ p, c ≠ .register p)
    (hread : ∀ n how, c ≠ .read n how) : (h.apply c).2.2.handles = h.handles := by
  cases c with
  | register p => exact absurd rfl (hregister p)
  | read n how => exact absurd rfl (hread n how)
  | resolve | cancel =>
    rw [apply]
    split <;> rfl
  | abandonAll | contains | isEmpty => rfl

theorem issues_apply {h : Held} (hi : h.table.Issues h.handles) (hr : h.table.Sound) (c : Command) :
    (h.apply c).2.2.table.Issues (h.apply c).2.2.handles := by
  have hgrows : h.table.slots.length ≤ (h.apply c).2.2.table.slots.length := (faithful h c hr).grows
  cases c with
  | register p =>
    rw [apply]
    cases hreg : h.table.register p with
    | error f => exact hi
    | ok a => exact hi.register hreg
  | read n how =>
    change (h.readHandle n how).2.table.Issues (h.readHandle n how).2.handles
    unfold readHandle
    split
    · exact hi
    · rename_i k _
      exact (hi.after_read _ n).grows (Nat.le_of_eq (h.table.slots_setSlot_length k _).symm)
  | _ =>
    rw [handles_apply h]
    · exact hi.grows hgrows
    · nofun
    · nofun

theorem issues_run {h : Held} (hi : h.table.Issues h.handles) (hr : h.table.Sound)
    (cs : List Command) : (owner.run cs h).table.Issues (owner.run cs h).handles := by
  induction cs generalizing h with
  | nil => exact hi
  | cons c cs ih => exact ih (issues_apply hi hr c) (faithful h c hr).sound

/-- All that a table does after `cs` follows from what was done to its slots. -/
structure Recalls (cs : List Command) (h : Held) : Prop where
  told : owner.Told cs h
  answers : ∀ n how k, (owner.run cs h).handles[n]?.join = some k →
    ((owner.run cs h).apply (.read n how)).1 = .read (how.shows (OneShot.due (owner.history cs h k)))

theorem recalls_run (limit : UInt64) (cs : List Command) : Recalls cs ⟨.empty limit, []⟩ := by
  have hsound := empty_sound limit
  have htold : owner.Told cs ⟨.empty limit, []⟩ := faithful.told cs hsound rfl
  refine ⟨htold, fun n how k hk => ?_⟩
  have hissues : (empty limit).Issues [] := issues_nil _
  have hissued := issues_run hissues hsound cs n k hk
  rw [apply_read hk, ← (htold.behaves k hissued).answers]
  rfl

end Held

end CallExchange.Pending
