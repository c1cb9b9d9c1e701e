import CallExchange.Proofs.Exchange.Room
import CallExchange.Proofs.Histories

set_option autoImplicit false

/-!
# Generations of a port

A port may be registered again after it is retired. Each registration has a slot of its own, which
is settled by what retires the port next, and by nothing that comes later. Which ports are
registered is told by the commands alone.
-/

namespace CallExchange

namespace OneShot

variable {α : Type}

def Act.settles? : Act α → Option (Option α)
  | settle v => some v
  | read _ => none

def ofOutcome : Option (Option α) → OneShot α
  | none => .fresh
  | some none => .abandoned
  | some (some v) => .ready v

theorem outcome_deeds (as : List (Act α)) (s : OneShot α) :
    outcome (deeds as s) = as.findSome? Act.settles? := by
  induction as generalizing s with
  | nil => rfl
  | cons a as ih =>
    cases a with
    | settle v => rfl
    | read r => exact ih _

theorem after_of_isSettled {as : List (Act α)} {s : OneShot α} (hs : s.isSettled = true)
    (has : ∀ a ∈ as, a.settles?.isSome = true) : after as s = s := by
  induction as with
  | nil => rfl
  | cons a as ih =>
    cases a with
    | read r => exact nomatch has _ List.mem_cons_self
    | settle v =>
      change after as ((Act.settle v).exec s).1 = s
      rw [Act.exec_of_isSettled v hs]
      exact ih fun a ha => has a (List.mem_cons_of_mem _ ha)

theorem after_settlements {as : List (Act α)} (has : ∀ a ∈ as, a.settles?.isSome = true) :
    after as .fresh = ofOutcome (as.findSome? Act.settles?) := by
  cases as with
  | nil => rfl
  | cons a as =>
    cases a with
    | read r => exact nomatch has _ List.mem_cons_self
    | settle v =>
      have hfirst : ((Act.settle v).exec .fresh).1 = ofOutcome (some v) := by cases v <;> rfl
      change after as ((Act.settle v).exec .fresh).1 = ofOutcome (some v)
      rw [hfirst]
      exact after_of_isSettled (by cases v <;> rfl) fun a ha => has a (List.mem_cons_of_mem _ ha)

end OneShot

namespace Pending

open OneShot (Act due outcome deeds)

namespace Owner

variable {σ μ : Type} {o : Owner σ μ} {a : σ} {k : Ticket}

theorem run_append (ms ms' : List μ) (a : σ) : o.run (ms ++ ms') a = o.run ms' (o.run ms a) :=
  List.foldl_append ..

theorem trail_append (ms ms' : List μ) (a : σ) (k : Ticket) :
    o.trail (ms ++ ms') a k = o.trail ms a k ++ o.trail ms' (o.run ms a) k := by
  induction ms generalizing a with
  | nil => rfl
  | cons m ms ih =>
    change _ ++ o.trail (ms ++ ms') (o.next a m) k = (_ ++ o.trail ms (o.next a m) k) ++ _
    rw [ih, List.append_assoc]
    rfl

theorem Faithful.grows_run (ho : o.Faithful) (ms : List μ) (ha : (o.table a).Sound) :
    (o.table a).slots.length ≤ (o.table (o.run ms a)).slots.length := by
  induction ms generalizing a with
  | nil => exact Nat.le_refl _
  | cons m ms ih => exact Nat.le_trans (ho a m ha).grows (ih (ho a m ha).sound)

theorem Faithful.trail_unissued (ho : o.Faithful) (ms : List μ) (ha : (o.table a).Sound)
    (hk : (o.table (o.run ms a)).slots.length ≤ k) : o.trail ms a k = [] := by
  induction ms generalizing a with
  | nil => rfl
  | cons m ms ih =>
    have hfirst := Nat.le_trans (ho.grows_run (m :: ms) ha) hk
    change (if k < _ then _ else []) ++ _ = _
    rw [if_neg (Nat.not_lt.2 hfirst)]
    exact ih (ho a m ha).sound hk

/-- The history of a slot starts after the move that issues its ticket. -/
theorem Faithful.trail_issued (ho : o.Faithful) (ms : List μ) (ha : (o.table a).Sound)
    (hk : (o.table (o.run ms a)).slots.length = k) (m : μ) (ms' : List μ) :
    o.trail (ms ++ m :: ms') a k = o.trail ms' (o.next (o.run ms a) m) k := by
  rw [trail_append, ho.trail_unissued ms ha (Nat.le_of_eq hk)]
  change (if k < _ then _ else []) ++ _ = _
  rw [if_neg (Nat.not_lt.2 (Nat.le_of_eq hk))]
  rfl

end Owner

namespace Held

variable {h : Held} {c : Command} {p : PortId} {k : Ticket} {limit : UInt64}

def Command.isRead : Command → Bool
  | .read _ _ => true
  | _ => false

theorem act_settles (hr : h.table.Sound) (hk : h.table.ticket? p = some k) (c : Command) :
    (h.act c k).bind Act.settles? = c.settles p := by
  cases c with
  | read n how =>
    rw [act]
    split <;> rfl
  | _ =>
    rw [act, settling_of_holder? (hr.holder?_of_ticket? hk)]
    · generalize Command.settles _ p = v
      cases v <;> rfl
    · exact fun _ _ he => by cases he

theorem ticket?_apply (hr : h.table.Sound) (hk : h.table.ticket? p = some k)
    (hc : c.settles p = none) : (h.apply c).2.2.table.ticket? p = some k := by
  cases c with
  | register q =>
    rw [apply]
    cases hreg : h.table.register q with
    | error f => exact hk
    | ok a =>
      have hne : p ≠ q := by
        rintro rfl
        rw [(register_eq_ok hreg).2.1] at hk
        cases hk
      exact (ticket?_register hreg p).trans ((if_neg hne).trans hk)
  | read n how =>
    change (h.readHandle n how).2.table.ticket? p = some k
    unfold readHandle
    split <;> exact hk
  | resolve | cancel | abandonAll | contains | isEmpty =>
    refine ((settles_apply hr ?_ ?_).ticket p).trans ?_
    · exact fun _ he => by cases he
    · exact fun _ _ he => by cases he
    · rw [hc]
      exact hk

/-- The slot of a port that waits is settled by what settles the port first. -/
theorem findSome?_trail (hr : h.table.Sound) (hk : h.table.ticket? p = some k)
    (cs : List Command) :
    (owner.trail cs h k).findSome? Act.settles? = cs.findSome? (·.settles p) := by
  induction cs generalizing h with
  | nil => rfl
  | cons c cs ih =>
    have hlt : k < h.table.slots.length := hr.lt hk
    have hact := act_settles hr hk c
    change ((if k < h.table.slots.length then (h.act c k).toList else []) ++
      owner.trail cs (h.apply c).2.2 k).findSome? Act.settles? = _
    rw [if_pos hlt, List.findSome?_append, List.findSome?_cons]
    have hfirst : (h.act c k).toList.findSome? Act.settles? = c.settles p := by
      rw [← hact]
      obtain _ | _ | _ := h.act c k <;> rfl
    rw [hfirst]
    cases hc : c.settles p with
    | some v => rfl
    -- `p` has kept its ticket, also when other ports have come and gone
    | none => exact ih (faithful h c hr).sound (ticket?_apply hr hk hc)

theorem handles_isPrefix (cs : List Command) (hcs : ∀ c ∈ cs, c.isRead = false) (h : Held) :
    h.handles <+: (owner.run cs h).handles := by
  induction cs generalizing h with
  | nil => exact List.prefix_rfl
  | cons c cs ih =>
    refine List.IsPrefix.trans ?_
      (ih (fun c hc => hcs c (List.mem_cons_of_mem _ hc)) (h.apply c).2.2)
    cases c with
    | read n how => exact nomatch hcs _ List.mem_cons_self
    | register p =>
      rw [apply]
      split
      · exact List.prefix_rfl
      · exact List.prefix_append _ _
    | _ =>
      refine ⟨[], (List.append_nil _).trans (handles_apply h ?_ ?_).symm⟩
      · exact fun _ he => by cases he
      · exact fun _ _ he => by cases he

theorem isSome_settles_of_mem_trail {cs : List Command} (hcs : ∀ c ∈ cs, c.isRead = false) :
    ∀ a ∈ owner.trail cs h k, a.settles?.isSome = true := by
  induction cs generalizing h with
  | nil => nofun
  | cons c cs ih =>
    intro a ha
    rcases List.mem_append.1 ha with hfirst | hrest
    · split at hfirst
      · have hact : h.act c k = some a := Option.mem_toList.1 hfirst
        cases c with
        | read n how => exact nomatch hcs _ List.mem_cons_self
        | _ =>
          obtain ⟨v, -, rfl⟩ := Option.map_eq_some_iff.1 hact
          rfl
      · cases hfirst
    · exact ih (fun c hc => hcs c (List.mem_cons_of_mem _ hc)) a hrest

def ports (h : Held) : List PortId := h.table.waiting.map Prod.fst

def Command.registered (limit : UInt64) (ps : List PortId) : Command → List PortId
  | .register p => if ps.length < limit.toNat ∧ p ∉ ps then ps ++ [p] else ps
  | c => ps.filter fun q => (c.settles q).isNone

/-- The ports that are registered after commands on an empty table. -/
def registered (limit : UInt64) (cs : List Command) : List PortId :=
  cs.foldl (fun ps c => c.registered limit ps) []

theorem mem_ports : p ∈ h.ports ↔ h.table.contains p = true := by
  rw [contains_eq, ticket?, Lookup.lookup_isSome_iff_mem]
  rfl

theorem length_ports (h : Held) : h.ports.length = h.table.size := List.length_map _

inductive Registered (h : Held) (p : PortId) : Answer × List Waker × Held → Prop where
  | full (hfull : h.table.limit.toNat ≤ h.table.size) :
      Registered h p (.refused (.registryFull h.table.limit), [], h)
  | duplicate (hroom : h.table.size < h.table.limit.toNat) (hp : p ∈ h.ports) :
      Registered h p (.refused (.duplicatePort p), [], h)
  | issued (table : Pending) (hroom : h.table.size < h.table.limit.toNat) (hp : p ∉ h.ports)
      (hreg : h.table.register p = .ok (h.table.slots.length, table)) :
      Registered h p
        (.handle h.handles.length, [], ⟨table, h.handles ++ [some h.table.slots.length]⟩)

theorem apply_registered (h : Held) (p : PortId) : Registered h p (h.apply (.register p)) := by
  rw [apply]
  by_cases hfull : h.table.limit.toNat ≤ h.table.size
  · rw [register, if_pos hfull]
    exact .full hfull
  · by_cases hp : h.table.contains p = true
    · rw [register, if_neg hfull, if_pos hp]
      exact .duplicate (Nat.lt_of_not_le hfull) (mem_ports.2 hp)
    · obtain ⟨table, hreg⟩ : ∃ table, h.table.register p = .ok (h.table.slots.length, table) :=
        ⟨_, by rw [register, if_neg hfull, if_neg hp]⟩
      rw [hreg]
      exact .issued _ (Nat.lt_of_not_le hfull) (mt mem_ports.1 hp) hreg

theorem ports_retire {r' : Pending} {w : Option Waker} {v : Option Value}
    (hret : h.table.retire? p (Act.settle v).exec = some (w, r')) :
    r'.waiting.map Prod.fst = h.ports.filter fun q => (only p v q).isNone := by
  obtain ⟨k, -, -, rfl⟩ := retire?_eq_some hret
  rw [ports, List.filter_map]
  refine congrArg _ (List.filter_congr fun e _ => ?_)
  change (!(e.1 == p)) = (if e.1 = p then some v else none).isNone
  by_cases he : e.1 = p
  · rw [if_pos he, he, beq_self_eq_true]
    rfl
  · rw [if_neg he, beq_false_of_ne he]
    rfl

theorem filter_ports_absent (hp : h.table.ticket? p = none) (v : Option Value) :
    h.ports.filter (fun q => (only p v q).isNone) = h.ports := by
  refine List.filter_eq_self.2 fun q hq => ?_
  have hne : q ≠ p := by
    rintro rfl
    rw [mem_ports, contains_eq, hp] at hq
    cases hq
  rw [only, if_neg hne]
  rfl

theorem ports_apply (hr : h.table.Sound) (c : Command) :
    (h.apply c).2.2.ports = c.registered h.table.limit h.ports := by
  have hsame : h.ports = h.ports.filter fun _ => true := (List.filter_true _).symm
  cases c with
  | register p =>
    rw [Command.registered, length_ports]
    have hdone := h.apply_registered p
    generalize h.apply (.register p) = done at hdone ⊢
    cases hdone with
    | full hfull => rw [if_neg fun hroom => absurd hroom.1 (Nat.not_lt.2 hfull)]
    | duplicate hroom hp => rw [if_neg fun hnew => hnew.2 hp]
    | issued table hroom hp hreg =>
      obtain ⟨-, -, -, rfl⟩ := register_eq_ok hreg
      rw [if_pos ⟨hroom, hp⟩]
      exact List.map_append
  | resolve p v =>
    rw [apply]
    cases hret : h.table.resolve? p v with
    | none => exact (filter_ports_absent (retire?_eq_none_iff.1 hret) _).symm
    | some a => exact ports_retire (v := some v) hret
  | cancel p =>
    rw [apply]
    cases hret : h.table.cancel? p with
    | none => exact (filter_ports_absent (retire?_eq_none_iff.1 hret) _).symm
    | some a => exact ports_retire (v := none) hret
  | abandonAll =>
    change h.table.abandonAll.2.waiting.map Prod.fst = h.ports.filter fun _ => false
    rw [(abandonAll_eq hr).2.1, List.filter_false]
    rfl
  | contains p => exact hsame
  | isEmpty => exact hsame
  | read n how =>
    refine Eq.trans ?_ hsame
    change (h.readHandle n how).2.table.waiting.map Prod.fst = _
    unfold readHandle
    split <;> rfl

theorem within_apply (hw : h.table.Within limit) (c : Command) :
    (h.apply c).2.2.table.Within limit := by
  cases c with
  | register p =>
    rw [apply]
    cases hreg : h.table.register p with
    | error f => exact hw
    | ok a => exact hw.register hreg
  | resolve p v =>
    rw [apply]
    cases hret : h.table.resolve? p v with
    | none => exact hw
    | some a => exact hw.retire hret
  | cancel p =>
    rw [apply]
    cases hret : h.table.cancel? p with
    | none => exact hw
    | some a => exact hw.retire hret
  | abandonAll => exact hw.abandonAll
  | contains p => exact hw
  | isEmpty => exact hw
  | read n how =>
    change (h.readHandle n how).2.table.Within limit
    unfold readHandle
    split
    · exact hw
    · exact ⟨hw.limit_eq, hw.size⟩

theorem registered_run (cs : List Command) (hr : h.table.Sound) (hw : h.table.Within limit) :
    (owner.run cs h).ports = cs.foldl (fun ps c => c.registered limit ps) h.ports ∧
      (owner.run cs h).table.Within limit := by
  induction cs generalizing h with
  | nil => exact ⟨rfl, hw⟩
  | cons c cs ih =>
    have hports := ports_apply hr c
    rw [hw.limit_eq] at hports
    change _ = cs.foldl _ (c.registered limit h.ports) ∧ _
    rw [← hports]
    exact ih (faithful h c hr).sound (within_apply hw c)

/-- What a table answers when the ports `ps` are registered. -/
structure Serves (limit : UInt64) (ps : List PortId) (h : Held) : Prop where
  size : h.table.size = ps.length
  bounded : ps.length ≤ limit.toNat
  full : ∀ p, (h.apply (.register p)).1 = .refused (.registryFull limit) ↔
    ps.length = limit.toNat
  duplicate : ∀ p, (h.apply (.register p)).1 = .refused (.duplicatePort p) ↔
    ps.length ≠ limit.toNat ∧ p ∈ ps
  issued : ∀ p, (∃ n, (h.apply (.register p)).1 = .handle n) ↔ ps.length ≠ limit.toNat ∧ p ∉ ps
  refused : ∀ p f, (h.apply (.register p)).1 = .refused f → (h.apply (.register p)).2 = ([], h)
  delivered : ∀ p v, (h.apply (.resolve p v)).1 = .delivered ↔ p ∈ ps
  rejected : ∀ p v, h.apply (.resolve p v) = (.rejected v, [], h) ↔ p ∉ ps
  cancel : ∀ p, (h.apply (.cancel p)).1 = .flag (decide (p ∈ ps))
  abandonAll : (h.apply .abandonAll).1 = .count ps.length ∧
    (h.apply .abandonAll).2.2.table.size = 0

theorem ticket?_eq_none_iff : h.table.ticket? p = none ↔ p ∉ h.ports := by
  rw [mem_ports, contains_eq, Option.not_isSome_iff_eq_none]

theorem resolve_cases (h : Held) (p : PortId) (v : Value) :
    p ∉ h.ports ∧ h.apply (.resolve p v) = (.rejected v, [], h) ∨
      p ∈ h.ports ∧ (h.apply (.resolve p v)).1 = .delivered := by
  rw [apply]
  cases hret : h.table.resolve? p v with
  | none => exact .inl ⟨ticket?_eq_none_iff.1 (retire?_eq_none_iff.1 hret), rfl⟩
  | some a =>
    refine .inr ⟨?_, rfl⟩
    by_contra hp
    rw [resolve?, retire?_eq_none_iff.2 (ticket?_eq_none_iff.2 hp)] at hret
    cases hret

theorem apply_cancel (h : Held) (p : PortId) :
    (h.apply (.cancel p)).1 = .flag (decide (p ∈ h.ports)) := by
  rw [apply]
  cases hret : h.table.cancel? p with
  | none => rw [decide_eq_false (ticket?_eq_none_iff.1 (retire?_eq_none_iff.1 hret))]
  | some a =>
    have hp : p ∈ h.ports := by
      by_contra hp
      rw [cancel?, retire?_eq_none_iff.2 (ticket?_eq_none_iff.2 hp)] at hret
      cases hret
    rw [decide_eq_true hp]

theorem register_answers (hbound : h.table.size ≤ h.table.limit.toNat) (p : PortId) :
    ((h.apply (.register p)).1 = .refused (.registryFull h.table.limit) ↔
        h.ports.length = h.table.limit.toNat) ∧
      ((h.apply (.register p)).1 = .refused (.duplicatePort p) ↔
        h.ports.length ≠ h.table.limit.toNat ∧ p ∈ h.ports) ∧
      ((∃ n, (h.apply (.register p)).1 = .handle n) ↔
        h.ports.length ≠ h.table.limit.toNat ∧ p ∉ h.ports) ∧
      ∀ f, (h.apply (.register p)).1 = .refused f → (h.apply (.register p)).2 = ([], h) := by
  have hdone := h.apply_registered p
  rw [length_ports]
  generalize h.apply (.register p) = done at hdone ⊢
  cases hdone with
  | full hfull =>
    have hsize := Nat.le_antisymm hbound hfull
    exact ⟨iff_of_true rfl hsize, iff_of_false nofun fun hroom => hroom.1 hsize,
      iff_of_false nofun fun hroom => hroom.1 hsize, fun _ _ => rfl⟩
  | duplicate hroom hp =>
    have hsize := Nat.ne_of_lt hroom
    exact ⟨iff_of_false nofun hsize, iff_of_true rfl ⟨hsize, hp⟩,
      iff_of_false nofun fun hnew => hnew.2 hp, fun _ _ => rfl⟩
  | issued table hroom hp hreg =>
    have hsize := Nat.ne_of_lt hroom
    exact ⟨iff_of_false nofun hsize, iff_of_false nofun fun hold => hp hold.2,
      iff_of_true ⟨_, rfl⟩ ⟨hsize, hp⟩, nofun⟩

theorem serves (hr : h.table.Sound) (hw : h.table.Within limit) : Serves limit h.ports h := by
  have hsize := h.length_ports
  have hbound := hw.size
  obtain rfl := hw.limit_eq
  have hreg := register_answers hbound
  refine ⟨hsize.symm, hsize ▸ hbound, fun p => (hreg p).1, fun p => (hreg p).2.1,
    fun p => (hreg p).2.2.1, fun p => (hreg p).2.2.2, fun p v => ?_, fun p v => ?_, h.apply_cancel,
    ?_, ?_⟩
  · obtain ⟨hp, he⟩ | ⟨hp, he⟩ := h.resolve_cases p v
    · exact iff_of_false (by rw [he]; nofun) hp
    · exact iff_of_true he hp
  · obtain ⟨hp, he⟩ | ⟨hp, he⟩ := h.resolve_cases p v
    · exact iff_of_true he hp
    · refine iff_of_false (fun hrej => ?_) (not_not_intro hp)
      rw [hrej] at he
      cases he
  · rw [hsize]
    rfl
  · change h.table.abandonAll.2.waiting.length = 0
    rw [(abandonAll_eq hr).2.1]
    rfl

theorem handle_apply {n : Nat} {a : Option Ticket} (hn : h.handles[n]? = some a) (c : Command) :
    (h.apply c).2.2.handles[n]? = some a ∨ (h.apply c).2.2.handles[n]? = some none := by
  cases c with
  | register p =>
    rw [apply]
    split
    · exact .inl hn
    · exact .inl ((List.getElem?_append_left (List.getElem?_eq_some_iff.1 hn).1).trans hn)
  | read m how =>
    change (h.readHandle m how).2.handles[n]? = some a ∨
      (h.readHandle m how).2.handles[n]? = some none
    unfold readHandle
    split
    · exact .inl hn
    · dsimp only
      split
      · rw [List.getElem?_set]
        split
        · rename_i hm
          exact .inr (if_pos (hm ▸ (List.getElem?_eq_some_iff.1 hn).1))
        · exact .inl hn
      · exact .inl hn
  | _ =>
    rw [handles_apply h]
    · exact .inl hn
    · exact fun _ he => by cases he
    · exact fun _ _ he => by cases he

theorem handle_run {n : Nat} {a : Option Ticket} (hn : h.handles[n]? = some a) (cs : List Command) :
    (owner.run cs h).handles[n]? = some a ∨ (owner.run cs h).handles[n]? = some none := by
  induction cs generalizing h a with
  | nil => exact .inl hn
  | cons c cs ih =>
    rcases handle_apply hn c with hkept | hgone
    · exact ih hkept
    · exact .inr ((ih hgone).elim id id)

theorem register_handle {n : Nat} (hreg : (h.apply (.register p)).1 = .handle n) :
    (h.apply (.register p)).2.2.handles[n]? = some (some h.table.slots.length) ∧
      (h.apply (.register p)).2.2.table.ticket? p = some h.table.slots.length := by
  have hdone := h.apply_registered p
  generalize h.apply (.register p) = done at hdone hreg ⊢
  cases hdone with
  | full | duplicate => cases hreg
  | issued table hroom hp htable =>
    cases hreg
    exact ⟨List.getElem?_concat_length, (ticket?_register htable p).trans (if_pos rfl)⟩

def new (limit : UInt64) : Held := ⟨.empty limit, []⟩

/-- What has come of a registration of `p` that gave out the handle `n` with the ticket `k`, after
`later`: its slot is settled by what settled `p` first. -/
structure Generation (limit : UInt64) (past : List Command) (p : PortId) (later : List Command)
    (n : Nat) (k : Ticket) : Prop where
  outcome : outcome (owner.history (past ++ .register p :: later) (new limit) k) =
    later.findSome? (·.settles p)
  answers : ∀ how, let h := owner.run (past ++ .register p :: later) (new limit)
    (h.apply (.read n how)).1 = .read .noHandle ∨ (h.apply (.read n how)).1 = .read (how.shows
      (due (owner.history (past ++ .register p :: later) (new limit) k)))
  unread : (∀ c ∈ later, c.isRead = false) →
    let h := owner.run (past ++ .register p :: later) (new limit)
    h.handles[n]? = some (some k) ∧ h.table.slot k = .ofOutcome (later.findSome? (·.settles p))

theorem apply_read_none {n : Nat} (hn : h.handles[n]?.join = none) (how : OneShot.Read) :
    (h.apply (.read n how)).1 = .read .noHandle := by
  rw [apply, readHandle, hn]

theorem generation {past : List Command} {n : Nat} (hpast : owner.run past (new limit) = h)
    (hreg : (h.apply (.register p)).1 = .handle n) (later : List Command) :
    Generation limit past p later n h.table.slots.length := by
  have hstart : (owner.table (new limit)).Sound := empty_sound limit
  have hr : h.table.Sound := hpast ▸ faithful.sound_run past hstart
  obtain ⟨hhandle, hticket⟩ := register_handle hreg
  have hrun : owner.run (past ++ .register p :: later) (new limit) =
      owner.run later (h.apply (.register p)).2.2 :=
    (owner.run_append past (.register p :: later) (new limit)).trans
      (congrArg (owner.run (.register p :: later)) hpast)
  have htrail : owner.trail (past ++ .register p :: later) (new limit) h.table.slots.length =
      owner.trail later (h.apply (.register p)).2.2 h.table.slots.length := by
    have hissued := faithful.trail_issued past hstart rfl (.register p) later
    rwa [hpast] at hissued
  have hslots := faithful.slots_run (past ++ .register p :: later) hstart h.table.slots.length
  have hrecalls : Recalls (past ++ .register p :: later) (new limit) := recalls_run limit _
  generalize h.table.slots.length = k at *
  have hr₁ : (h.apply (.register p)).2.2.table.Sound := (faithful h (.register p) hr).sound
  generalize (h.apply (.register p)).2.2 = h₁ at *
  have hfirst := findSome?_trail hr₁ hticket later
  refine ⟨?_, fun how => ?_, fun hlater => ⟨?_, ?_⟩⟩
  · rw [Owner.history, OneShot.outcome_deeds, htrail]
    exact hfirst
  · rcases handle_run hhandle later with hkept | hgone
    · refine .inr (hrecalls.answers n how k ?_)
      rw [hrun, hkept]
      rfl
    · refine .inl (apply_read_none ?_ how)
      rw [hrun, hgone]
      rfl
  · rw [hrun]
    obtain ⟨more, hmore⟩ := handles_isPrefix later hlater h₁
    rw [← hmore, List.getElem?_append_left (List.getElem?_eq_some_iff.1 hhandle).1, hhandle]
  · have hlt : k <
        (owner.table (owner.run (past ++ .register p :: later) (new limit))).slots.length := by
      rw [hrun]
      exact Nat.lt_of_lt_of_le (hr₁.lt hticket) (faithful.grows_run later hr₁)
    rw [Owner.slot_of_lt hlt, htrail] at hslots
    rw [← hfirst]
    exact hslots.trans (OneShot.after_settlements (isSome_settles_of_mem_trail hlater))

/-- Every registration has one winner. Whatever has been done to a table, what it answers next is
told by the ports that are registered, and the slot of each registration is settled by what retires
the port first after it, and by nothing else, whether or not the port is registered again. -/
theorem registration_settled_once (limit : UInt64) (past : List Command) :
    Serves limit (registered limit past) (owner.run past (new limit)) ∧
      ∀ p n later, ((owner.run past (new limit)).apply (.register p)).1 = .handle n →
        Generation limit past p later n (owner.run past (new limit)).table.slots.length := by
  refine ⟨?_, fun p n later hreg => generation rfl hreg later⟩
  obtain ⟨hports, hw⟩ := registered_run (h := new limit) past (empty_sound limit) (.empty limit)
  have hserves := serves (faithful.sound_run (a := new limit) past (empty_sound limit)) hw
  rwa [hports] at hserves

/-- A port that has been registered before is registered again, and again after that. -/
theorem registration_settled_once_again :
    let past : List Command := [.register ⟨1⟩, .register ⟨2⟩, .register ⟨1⟩, .resolve ⟨1⟩ .null]
    let later : List Command :=
      [.resolve ⟨2⟩ .null, .cancel ⟨1⟩, .register ⟨1⟩, .read 2 .tryTake, .resolve ⟨1⟩ (.bool true)]
    registered 2 past = [⟨2⟩] ∧ later.findSome? (·.settles ⟨1⟩) = some none ∧
      ((owner.run past (new 2)).apply (.register ⟨1⟩)).1 = .handle 2 ∧
      Serves 2 (registered 2 past) (owner.run past (new 2)) ∧
      Generation 2 past ⟨1⟩ later 2 (owner.run past (new 2)).table.slots.length := by
  intro past later
  have hreg : ((owner.run past (new 2)).apply (.register ⟨1⟩)).1 = .handle 2 := by rfl
  obtain ⟨hserves, hgeneration⟩ := registration_settled_once 2 past
  exact ⟨by decide, by rfl, hreg, hserves, hgeneration ⟨1⟩ 2 later hreg⟩

end Held

end Pending

end CallExchange
