import CallExchange.Floor

set_option autoImplicit false

/-!
# Handles

What a floor holds on to, by place: the dispatcher handle, the handles of the session, and the code
that runs. Each may know a port or a ticket, and may be one of the owners of the exchange.
-/

namespace CallExchange

inductive Handle (α ε : Type) where
  | dispatcher
  | deferred (d : Deferred α ε)
  | stream (st : Stream α ε)
  | broadcast (b : Exchange.Broadcast)
  | single (k : Ticket)
  | running (r : Running α ε)

namespace Handle

variable {α ε : Type}

/-- The port that can be read or closed by the handle. A failed result does not reach its port. -/
def port? : Handle α ε → Option PortId
  | deferred d => if d.holds then some d.port else none
  | stream st => some st.port.id
  | broadcast b => some b.id
  | running (.async _ _ p _) => some p
  | running (.stream _ _ port) => some port.id
  | _ => none

def takes : Handle α ε → Bool
  | stream _ | broadcast _ | running (.stream _ _ _) => true
  | _ => false

def ticket? : Handle α ε → Option Ticket
  | deferred ⟨.waiting k, _, _, _⟩ => some k
  | single k => some k
  | running (.async _ _ _ k) => some k
  | _ => none

def owns : Handle α ε → Nat
  | dispatcher => 1
  | deferred d => d.holds.toNat
  | stream st => st.holds.toNat
  | running (.stream _ _ _) => 1
  | _ => 0

def isCall : Handle α ε → Bool
  | running (.async _ _ _ _) | running (.stream _ _ _) => true
  | _ => false

/-- Whether one handle is what is left of another. -/
structure From (h' h : Handle α ε) : Prop where
  port : ∀ p, h'.port? = some p → h.port? = some p
  ticket : ∀ k, h'.ticket? = some k → h.ticket? = some k
  call : h'.isCall = true → h.isCall = true
  takes : ∀ p, h'.port? = some p → h'.takes = true → h.takes = true

theorem From.refl (h : Handle α ε) : h.From h :=
  ⟨fun _ hp => hp, fun _ hk => hk, id, fun _ _ ht => ht⟩

theorem ticket?_waiting {d : Deferred α ε} {k : Ticket} (h : d.state = .waiting k) :
    (deferred d).ticket? = some k := by
  obtain ⟨state, codec, task, port⟩ := d
  cases h
  rfl

theorem port?_waiting {d : Deferred α ε} {k : Ticket} (h : d.state = .waiting k) :
    (deferred d).port? = some d.port := by
  rw [port?, Deferred.holds, h]
  rfl

theorem owns_waiting {d : Deferred α ε} {k : Ticket} (h : d.state = .waiting k) :
    (deferred d).owns = 1 := by
  rw [owns, Deferred.holds, h]
  rfl

/-- A port from which nothing is taken waits for one delivery, and so it came with a ticket. -/
theorem exists_ticket {h : Handle α ε} {p : PortId} (hp : h.port? = some p)
    (ht : h.takes = false) : ∃ k, h.ticket? = some k := by
  cases h with
  | dispatcher | single => cases hp
  | stream | broadcast => cases ht
  | deferred d =>
    cases hstate : d.state with
    | waiting k => exact ⟨k, ticket?_waiting hstate⟩
    | failed failure =>
      rw [port?, Deferred.holds, hstate] at hp
      cases hp
  | running r =>
    cases r with
    | async task codec p k => exact ⟨k, rfl⟩
    | stream => cases ht
    | sync | callback => cases hp

theorem takes_of_ticket {h : Handle α ε} {k : Ticket} (hk : h.ticket? = some k) :
    h.takes = false := by
  cases h with
  | dispatcher | stream | broadcast => cases hk
  | deferred | single => rfl
  | running r =>
    cases r with
    | stream => cases hk
    | async | sync | callback => rfl

theorem from_failed {d : Deferred α ε} {failure : Option (Failure ε)}
    (h : d.state = .failed failure) (h' : Handle α ε) : (deferred d).From h' := by
  obtain ⟨state, codec, task, port⟩ := d
  cases h
  refine ⟨?_, ?_, ?_, ?_⟩
  · intro p hp
    cases hp
  · intro k hk
    cases hk
  · intro hc
    cases hc
  · intro p hp
    cases hp

theorem from_stream {c : Stream α ε} {h' : Handle α ε} (h : h'.port? = some c.port.id)
    (ht : h'.takes = true) : (stream c).From h' := by
  refine ⟨?_, ?_, ?_, ?_⟩
  · intro p hp
    exact h.trans hp
  · intro k hk
    cases hk
  · intro hc
    cases hc
  · intro _ _ _
    exact ht

end Handle

inductive Shelf where
  | dispatcher
  | deferreds
  | streams
  | broadcasts
  | singles
  | running
deriving DecidableEq

structure Place where
  shelf : Shelf
  index : Nat
deriving DecidableEq

namespace Floor

variable {α ε : Type}

def table (f : Floor α ε) : Shelf → List (Option (Handle α ε))
  | .dispatcher => [if f.session.dispatcher then some .dispatcher else none]
  | .deferreds => f.session.deferreds.map (Option.map .deferred)
  | .streams => f.session.streams.map (Option.map .stream)
  | .broadcasts => f.session.broadcasts.map (Option.map .broadcast)
  | .singles => f.session.tickets.map (Option.map .single)
  | .running => f.running.map (Option.map .running)

def handle? (f : Floor α ε) (q : Place) : Option (Handle α ε) := (f.table q.shelf)[q.index]?.join

def weight (h : Option (Handle α ε)) : Nat := (h.map Handle.owns).getD 0

def total : List (Option (Handle α ε)) → Nat
  | [] => 0
  | h :: l => weight h + total l

/-- How many owners of the exchange there are on the floor. -/
def claims (f : Floor α ε) : Nat :=
  total (f.table .dispatcher) + total (f.table .deferreds) + total (f.table .streams)
    + total (f.table .broadcasts) + total (f.table .singles) + total (f.table .running)

section Lookup

variable {f : Floor α ε} {n : Nat} {γ : Type} {s : Shelf} {l : List (Option γ)}
  {make : γ → Handle α ε}

theorem handle?_eq_map (hs : f.table s = l.map (Option.map make)) :
    f.handle? ⟨s, n⟩ = l[n]?.join.map make := by
  rw [handle?, hs, List.getElem?_map]
  cases l[n]? <;> rfl

theorem handle?_of_join {a : γ} (hs : f.table s = l.map (Option.map make))
    (h : l[n]?.join = some a) : f.handle? ⟨s, n⟩ = some (make a) := by
  rw [handle?_eq_map hs, h]
  rfl

theorem join_of_handle? {a : γ} (hs : f.table s = l.map (Option.map make))
    (hinj : ∀ b, make b = make a → b = a) (h : f.handle? ⟨s, n⟩ = some (make a)) :
    l[n]?.join = some a := by
  rw [handle?_eq_map hs, Option.map_eq_some_iff] at h
  obtain ⟨b, hb, he⟩ := h
  rw [hb, hinj b he]

theorem handle?_deferred {d : Deferred α ε} (h : f.session.deferreds[n]?.join = some d) :
    f.handle? ⟨.deferreds, n⟩ = some (.deferred d) := handle?_of_join rfl h

theorem handle?_stream {st : Stream α ε} (h : f.session.streams[n]?.join = some st) :
    f.handle? ⟨.streams, n⟩ = some (.stream st) := handle?_of_join rfl h

theorem handle?_broadcast {b : Exchange.Broadcast} (h : f.session.broadcasts[n]?.join = some b) :
    f.handle? ⟨.broadcasts, n⟩ = some (.broadcast b) := handle?_of_join rfl h

theorem handle?_single {k : Ticket} (h : f.session.tickets[n]?.join = some k) :
    f.handle? ⟨.singles, n⟩ = some (.single k) := handle?_of_join rfl h

theorem handle?_running {r : Running α ε} (h : f.running[n]?.join = some r) :
    f.handle? ⟨.running, n⟩ = some (.running r) := handle?_of_join rfl h

theorem handle?_dispatcher (h : f.session.dispatcher = true) :
    f.handle? ⟨.dispatcher, 0⟩ = some .dispatcher := by
  rw [handle?, table, h]
  rfl

theorem deferred_of_handle? {d : Deferred α ε}
    (h : f.handle? ⟨.deferreds, n⟩ = some (.deferred d)) :
    f.session.deferreds[n]?.join = some d :=
  join_of_handle? rfl (fun _ he => Handle.deferred.inj he) h

theorem stream_of_handle? {st : Stream α ε} (h : f.handle? ⟨.streams, n⟩ = some (.stream st)) :
    f.session.streams[n]?.join = some st :=
  join_of_handle? rfl (fun _ he => Handle.stream.inj he) h

theorem code_of_handle? {r : Running α ε} (h : f.handle? ⟨.running, n⟩ = some (.running r)) :
    f.running[n]?.join = some r :=
  join_of_handle? rfl (fun _ he => Handle.running.inj he) h

theorem dispatcher_of_handle? {h : Handle α ε} (hq : f.handle? ⟨.dispatcher, n⟩ = some h) :
    n = 0 ∧ h = .dispatcher := by
  cases n with
  | zero =>
    rw [handle?, table] at hq
    cases hd : f.session.dispatcher <;> rw [hd] at hq <;> cases hq
    exact ⟨rfl, rfl⟩
  | succ n => cases hq

theorem handle?_start {x : Exchange} {q : Place} {h : Handle α ε}
    (hq : (start x).handle? q = some h) : q = ⟨.dispatcher, 0⟩ ∧ h = .dispatcher := by
  obtain ⟨shelf, n⟩ := q
  cases shelf with
  | dispatcher =>
    obtain ⟨rfl, rfl⟩ := dispatcher_of_handle? hq
    exact ⟨rfl, rfl⟩
  | _ => cases hq

theorem running_of_handle? {q : Place} {h : Handle α ε} (hq : f.handle? q = some h)
    (hc : h.isCall = true) : q.shelf = .running ∧ ∃ r, f.running[q.index]?.join = some r := by
  obtain ⟨shelf, n⟩ := q
  cases shelf with
  | running =>
    rw [handle?_eq_map rfl] at hq
    obtain ⟨r, hr, -⟩ := Option.map_eq_some_iff.1 hq
    exact ⟨rfl, r, hr⟩
  | dispatcher =>
    obtain ⟨-, rfl⟩ := dispatcher_of_handle? hq
    cases hc
  | deferreds | streams | broadcasts | singles =>
    rw [handle?_eq_map rfl] at hq
    obtain ⟨r, -, rfl⟩ := Option.map_eq_some_iff.1 hq
    cases hc

end Lookup

/-- `h` is put in a place, and every other place is as it was. -/
structure Swap (q : Place) (h : Option (Handle α ε)) (f f' : Floor α ε) : Prop where
  handle : ∀ q', f'.handle? q' = if q' = q then h else f.handle? q'
  claims : f'.claims + weight (f.handle? q) = f.claims + weight h

theorem Swap.self {f f' : Floor α ε} {q : Place} {h : Option (Handle α ε)} (hs : Swap q h f f') :
    f'.handle? q = h := (hs.handle q).trans (if_pos rfl)

theorem Swap.elsewhere {f f' : Floor α ε} {q q' : Place} {h : Option (Handle α ε)}
    (hs : Swap q h f f') (hne : q' ≠ q) : f'.handle? q' = f.handle? q' :=
  (hs.handle q').trans (if_neg hne)

/-- What is found afterwards is what was put there, or it was there before. -/
theorem Swap.origin {f f' : Floor α ε} {q q' : Place} {h : Option (Handle α ε)} {h' : Handle α ε}
    (hs : Swap q h f f') (hq' : f'.handle? q' = some h') :
    h = some h' ∨ q' ≠ q ∧ f.handle? q' = some h' := by
  by_cases hne : q' = q
  · subst hne
    exact .inl (hs.self.symm.trans hq')
  · exact .inr ⟨hne, (hs.elsewhere hne).symm.trans hq'⟩

theorem ne_of_handle? {f : Floor α ε} {q q' : Place} {h : Handle α ε} (hq : f.handle? q = none)
    (hq' : f.handle? q' = some h) : q' ≠ q := by
  rintro rfl
  rw [hq] at hq'
  cases hq'

theorem origin_of_passed {f f₁ f' : Floor α ε} {q q' q₁ : Place} {h' h₁ : Handle α ε}
    (hs : Swap q none f f₁) (hs' : Swap q' (some h') f₁ f') (hq₁ : f'.handle? q₁ = some h₁) :
    h' = h₁ ∨ f.handle? q₁ = some h₁ := by
  obtain hput | ⟨-, hq₁⟩ := hs'.origin hq₁
  · exact .inl (Option.some.inj hput)
  · obtain hnone | ⟨-, hold⟩ := hs.origin hq₁
    · cases hnone
    · exact .inr hold

theorem total_set (l : List (Option (Handle α ε))) (n : Nat) (h : Option (Handle α ε))
    (hn : n < l.length) : total (l.set n h) + weight l[n]?.join = total l + weight h := by
  induction l generalizing n with
  | nil => exact absurd hn (Nat.not_lt_zero n)
  | cons a l ih =>
    cases n with
    | zero =>
      simp only [total, List.set_cons_zero, List.getElem?_cons_zero, Option.join_some]
      omega
    | succ n =>
      have := ih n (Nat.lt_of_succ_lt_succ hn)
      simp only [total, List.set_cons_succ, List.getElem?_cons_succ] at this ⊢
      omega

theorem total_append (l : List (Option (Handle α ε))) (h : Option (Handle α ε)) :
    total (l ++ [h]) = total l + weight h := by
  induction l with
  | nil => simp [total]
  | cons a l ih =>
    rw [List.cons_append, total, total, ih]
    omega

section Swap

variable {f f' : Floor α ε} {s : Shelf}

theorem claims_of_table (hs : ∀ s', s' ≠ s → f'.table s' = f.table s') :
    f'.claims + total (f.table s) = f.claims + total (f'.table s) := by
  unfold claims
  cases s
  · rw [hs .deferreds (by decide), hs .streams (by decide), hs .broadcasts (by decide),
      hs .singles (by decide), hs .running (by decide)]
    omega
  · rw [hs .dispatcher (by decide), hs .streams (by decide), hs .broadcasts (by decide),
      hs .singles (by decide), hs .running (by decide)]
    omega
  · rw [hs .dispatcher (by decide), hs .deferreds (by decide), hs .broadcasts (by decide),
      hs .singles (by decide), hs .running (by decide)]
    omega
  · rw [hs .dispatcher (by decide), hs .deferreds (by decide), hs .streams (by decide),
      hs .singles (by decide), hs .running (by decide)]
    omega
  · rw [hs .dispatcher (by decide), hs .deferreds (by decide), hs .streams (by decide),
      hs .broadcasts (by decide), hs .running (by decide)]
    omega
  · rw [hs .dispatcher (by decide), hs .deferreds (by decide), hs .streams (by decide),
      hs .broadcasts (by decide), hs .singles (by decide)]
    omega

theorem Swap.of_set {n : Nat} {h : Option (Handle α ε)} (hn : n < (f.table s).length)
    (hset : f'.table s = (f.table s).set n h) (hs : ∀ s', s' ≠ s → f'.table s' = f.table s') :
    Swap ⟨s, n⟩ h f f' where
  handle := by
    rintro ⟨s', n'⟩
    by_cases hss : s' = s
    · subst hss
      rw [handle?, hset, List.getElem?_set]
      by_cases hnn : n' = n
      · subst hnn
        simp [hn]
      · rw [if_neg (Ne.symm hnn), if_neg (by simpa using hnn)]
        rfl
    · rw [handle?, hs s' hss, if_neg (by simpa using fun he => absurd he hss)]
      rfl
  claims := by
    have ht := claims_of_table hs
    have hw := total_set (f.table s) n h hn
    rw [hset] at ht
    change f'.claims + weight (f.table s)[n]?.join = _
    omega

theorem Swap.of_append {h : Option (Handle α ε)} (hset : f'.table s = f.table s ++ [h])
    (hs : ∀ s', s' ≠ s → f'.table s' = f.table s') :
    Swap ⟨s, (f.table s).length⟩ h f f' where
  handle := by
    rintro ⟨s', n'⟩
    by_cases hss : s' = s
    · subst hss
      rw [handle?, hset]
      rcases Nat.lt_trichotomy n' (f.table s').length with hlt | heq | hgt
      · rw [List.getElem?_append_left hlt, if_neg (by simpa using Nat.ne_of_lt hlt)]
        rfl
      · simp [heq]
      · rw [List.getElem?_eq_none (by simp; omega), if_neg (by simpa using Nat.ne_of_gt hgt),
          handle?, List.getElem?_eq_none (Nat.le_of_lt hgt)]
    · rw [handle?, hs s' hss, if_neg (by simpa using fun he => absurd he hss)]
      rfl
  claims := by
    have ht := claims_of_table hs
    rw [hset, total_append] at ht
    rw [handle?, List.getElem?_eq_none (Nat.le_refl _)]
    simp only [weight, Option.join_none, Option.map_none, Option.getD_none] at ht ⊢
    omega

theorem handle?_end (f : Floor α ε) (s : Shelf) : f.handle? ⟨s, (f.table s).length⟩ = none := by
  rw [handle?, List.getElem?_eq_none (Nat.le_refl _)]
  rfl

theorem weight_end (f : Floor α ε) (s : Shelf) :
    weight (f.handle? ⟨s, (f.table s).length⟩) = 0 := by
  rw [handle?_end]
  rfl

theorem lt_of_handle? {q : Place} {h : Handle α ε} (hq : f.handle? q = some h) :
    q.index < (f.table q.shelf).length := by
  refine Nat.lt_of_not_le fun hn => ?_
  rw [handle?, List.getElem?_eq_none hn] at hq
  cases hq

end Swap

end Floor

end CallExchange
