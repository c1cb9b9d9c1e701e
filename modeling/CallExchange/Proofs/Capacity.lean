import CallExchange.Proofs.Exchange.Room
import CallExchange.Proofs.Floor.Ledger
import CallExchange.Proofs.Lifetime

set_option autoImplicit false

/-!
# How many calls may be pending

The calls that are pending are those that the history has as opened and not retired, and no more of
them than the settings allow. One that would be too many is refused, which takes a number and
changes nothing else; whatever retires one makes room for the next, as long as the exchange is not
shut down.
-/

namespace CallExchange

variable {α ε : Type}

namespace Stage

/-- Calls for one delivery are refused, and so is their port: nothing of them is run, and all that
is left is `x`. -/
structure Refuses (st : Stage) (e : Fault) (x : Exchange) : Prop where
  opening : st.exchange.openSingle = (.error e, x)
  call : ∀ (α ε : Type) (bound : Nat) (thread : Option String) (task : String) (codec : Codec α ε)
    (entry : Script), callAsync bound thread task codec entry st = .returned (.error e) (st.put x)

/-- Calls for one delivery are accepted, and so is their port: the entry is run, and unless it calls
too deep for `bound` there is a result. -/
structure Accepts (st : Stage) : Prop where
  opening : ∃ p k x, st.exchange.openSingle = (.ok (p, k), x)
  call : ∀ (α ε : Type) (bound : Nat) (thread : Option String) (task : String) (codec : Codec α ε)
    (entry : Script), ∃ p x,
      let ran := performAll bound (some p) entry (st.put x)
      let called := callAsync bound thread task codec entry st
      ran = .exhausted ∧ called = .exhausted ∨
        ∃ s, ran.EndsIn s ∧ ∃ d y, called = .returned (.ok d) (s.put y)

structure Admits (limit : UInt64) (st : Stage) : Prop where
  full : st.exchange.closed = false → st.exchange.pendingCalls = limit.toNat →
    st.Refuses (.registryFull limit)
      { st.exchange with nextPort := st.exchange.nextPort.next }
  room : st.exchange.closed = false → st.exchange.pendingCalls ≠ limit.toNat → st.Accepts
  closed : st.exchange.closed = true → st.Refuses .closed st.exchange

variable {st : Stage} {e : Fault} {x : Exchange} {limit : UInt64}

theorem refuses_of_openSingle (h : st.exchange.openSingle = (.error e, x)) : st.Refuses e x where
  opening := h
  call α ε bound thread task codec entry := by
    have hbegin := Exchange.beginAsync_error task (congrArg Prod.fst h)
    rw [callAsync, hbegin, h]

theorem accepts_of_openSingle {p : PortId} {k : Ticket}
    (h : st.exchange.openSingle = (.ok (p, k), x)) : st.Accepts where
  opening := ⟨p, k, x, h⟩
  call α ε bound thread task codec entry := by
    obtain ⟨y, -, hbegin⟩ := Exchange.beginAsync_ok task (congrArg Prod.fst h)
    refine ⟨p, y, ?_⟩
    intro ran called
    have hcalled : called = ran.caught.bind fun ended s =>
        .returned (.ok (Deferred.ofEntry ⟨task, thread⟩ codec p k ended s.exchange).1)
          (s.put (Deferred.ofEntry ⟨task, thread⟩ codec p k ended s.exchange).2) := by
      change callAsync bound thread task codec entry st = _
      rw [callAsync, hbegin]
    rw [hcalled]
    cases ran with
    | exhausted => exact .inl ⟨rfl, rfl⟩
    | returned a s => exact .inr ⟨s, .inl ⟨a, rfl⟩, _, _, rfl⟩
    | unwound p s => exact .inr ⟨s, .inr ⟨p, rfl⟩, _, _, rfl⟩

theorem admits_of_within (hx : st.exchange.Consistent) (h : st.exchange.pending.Within limit) :
    st.Admits limit where
  full hopen hfull := refuses_of_openSingle (Exchange.openSingle_full hopen h hfull)
  room hopen hroom := by
    obtain ⟨k, y, hok⟩ := Exchange.openSingle_room hx hopen h hroom
    exact accepts_of_openSingle hok
  closed hclosed := refuses_of_openSingle (Exchange.openSingle_closed hclosed)

end Stage

namespace Floor

variable {f : Floor α ε} {m : Move α ε} {ms : List (Move α ε)} {c : Nat} {limit : UInt64}
  {p : PortId} {l : Ledger} {thread : Option String}

theorem within_apply (hs : f.Sound (m.opensPort.toNat + c)) (h : f.exchange.pending.Within limit)
    (thread : Option String) : (f.apply thread m).2.exchange.pending.Within limit := by
  obtain ⟨ops, he⟩ := hs.effect thread m
  exact he.runs.within hs.consistent (he.fit hs) h

theorem within_run (hs : f.Sound (ms.countP Move.opensPort + c))
    (h : f.exchange.pending.Within limit) (thread : Option String) :
    (run thread ms f).exchange.pending.Within limit := by
  induction ms generalizing f with
  | nil => exact h
  | cons m ms ih =>
    rw [countP_opens_cons] at hs
    exact ih (hs.apply thread) (within_apply hs h thread)

end Floor

namespace Ledger

open Floor

variable {f : Floor α ε} {m : Move α ε} {c : Nat} {limit : UInt64} {p : PortId} {l : Ledger}
  {thread : Option String}

theorem Tracks.perm (ht : l.Tracks f) (hs : f.Sound c) :
    f.exchange.pendingPorts.Perm l.waiting := by
  refine (List.perm_ext_iff_of_nodup hs.consistent.pending.ports_nodup ht.nodup).2 fun p => ?_
  exact Exchange.mem_pendingPorts.trans (ht.waiting p).symm

theorem Tracks.pendingCalls_eq (ht : l.Tracks f) (hs : f.Sound c) :
    f.exchange.pendingCalls = l.waiting.length := by
  rw [← (ht.perm hs).length_eq, Exchange.pendingPorts, List.length_map]
  rfl

theorem Tracks.opensPort_of_retires (ht : l.Tracks f) (hs : f.Sound c) (hp : p ∈ l.waiting)
    (h : l.retires p (m, (f.apply thread m).1) = true) : m.opensPort = false := by
  cases hm : m.opensPort with
  | false => rfl
  | true =>
    obtain ⟨q, hq⟩ := hs.alive_iff.1 (hs.live_of_waiting ((ht.waiting p).1 hp))
    have hstays : q ∈ holdersAfter l.holders (m, (f.apply thread m).1) := by
      refine mem_holdersAfter.2 (.inl ⟨(ht.holders q).2 hq, fun hlets => ?_⟩)
      rw [(letsGo?_uses hlets).1] at hm
      cases hm
    have hheld : l.isLeft (m, (f.apply thread m).1) = false :=
      List.isEmpty_eq_false_iff.2 (List.ne_nil_of_mem hstays)
    rw [retires, hheld, Bool.or_false] at h
    unfold Move.opensPort at hm
    split at hm
    case h_5 => cases hm
    all_goals
      rw [Move.completes?_of_postTo? rfl] at h
      cases h

/-- Where a port is retired there is room for another one. -/
theorem Tracks.length_lt (ht : l.Tracks f) (hs : f.Sound c) (hp : p ∈ l.waiting)
    (h : l.retires p (m, (f.apply thread m).1) = true) :
    (l.after (m, (f.apply thread m).1)).waiting.length < l.waiting.length := by
  have hopens : Move.opens? (m, (f.apply thread m).1) = none := by
    rw [opens?_apply, opened?_of_opensPort (ht.opensPort_of_retires hs hp h)]
    rfl
  rw [after, hopens, Option.toList_none, List.append_nil]
  refine List.length_filter_lt_length_iff_exists.2 ⟨p, hp, ?_⟩
  rw [h]
  decide

end Ledger

namespace Floor

/-- In every run that does not use up the numbers for ports, the ports that wait for one delivery
are those that were opened and that nothing has retired since, and they are no more than may be.
Until the exchange is shut down a call is refused if and only if there are that many, and whatever
retires one of them makes room for a call. -/
theorem run_counts_pending {s : Settings} {x : Exchange} (hx : Exchange.create s = .ok x)
    (thread : Option String) (ms : List (Move α ε))
    (hfew : ms.countP Move.opensPort + 1 < PortId.supply) :
    let f := run thread ms (start x)
    let l := ledger (history thread ms (start x))
    f.exchange.pendingPorts.Perm l.waiting ∧ f.exchange.pendingCalls = l.waiting.length ∧
      f.exchange.pendingCalls ≤ s.maxPending.toNat ∧ f.session.stage.Admits s.maxPending ∧
      ∀ p ∈ l.waiting, ∀ m, let t := f.apply thread m
        l.retires p (m, t.1) = true → t.2.exchange.closed = false → t.2.session.stage.Accepts := by
  intro f l
  have hstart : (start x : Floor α ε).Sound (ms.countP Move.opensPort + 0) := sound_start hx hfew
  have hlimit : (start x : Floor α ε).exchange.pending.Within s.maxPending := by
    obtain ⟨-, rfl⟩ := Exchange.create_eq hx
    exact .empty s.maxPending
  have hs : f.Sound 0 := hstart.run thread
  have hwithin : f.exchange.pending.Within s.maxPending := within_run hstart hlimit thread
  have htracks : l.Tracks f := (Ledger.tracks_start hx).run hstart thread
  have hcount : f.exchange.pendingCalls = l.waiting.length := htracks.pendingCalls_eq hs
  refine ⟨htracks.perm hs, hcount, hwithin.size, Stage.admits_of_within hs.consistent hwithin, ?_⟩
  intro p hp m t hretires hopen
  have hs' : f.Sound (m.opensPort.toNat + 0) := by
    rw [htracks.opensPort_of_retires hs hp hretires]
    exact hs
  have hsound : t.2.Sound 0 := hs'.apply thread
  have hadmits : t.2.session.stage.Admits s.maxPending :=
    Stage.admits_of_within hsound.consistent (within_apply hs' hwithin thread)
  refine hadmits.room hopen (Nat.ne_of_lt ?_)
  calc t.2.exchange.pendingCalls
      = (l.after (m, t.1)).waiting.length := (htracks.apply hs' thread).pendingCalls_eq hsound
    _ < l.waiting.length := htracks.length_lt hs hp hretires
    _ = f.exchange.pendingCalls := hcount.symm
    _ ≤ s.maxPending.toNat := hwithin.size

/-- With room for one call, a second one is refused until the result of the first is dropped. -/
theorem run_counts_pending_of_one :
    ∃ x, Exchange.create { Settings.standard with maxPending := 1 } = .ok x ∧
      let codec : Codec Unit Unit :=
        ⟨fun _ => .ok (.success ()), fun _ => false, fun _ => .ok (.malformed "")⟩
      let ms : List (Move Unit Unit) := [.beginAsync "task" codec, .finish 0 (.ok ⟨[]⟩)]
      let m : Move Unit Unit := .step (.dropDeferred 0) rfl
      let f := run none ms (start x)
      let t := f.apply none m
      ms.countP Move.opensPort + 1 < PortId.supply ∧ f.exchange.pendingPorts.Perm [⟨1⟩] ∧
        f.session.stage.Refuses (.registryFull 1)
          { f.exchange with nextPort := f.exchange.nextPort.next } ∧
        t.2.session.stage.Accepts := by
  obtain ⟨x, hx⟩ : ∃ x, Exchange.create { Settings.standard with maxPending := 1 } = .ok x :=
    ⟨_, rfl⟩
  refine ⟨x, hx, ?_⟩
  intro codec ms m f t
  have hfew : ms.countP Move.opensPort + 1 < PortId.supply := by decide
  have hwaiting : (ledger (history none ms (start x))).waiting = [⟨1⟩] := by
    cases hx
    rfl
  have hopen : f.exchange.closed = false := by
    cases hx
    rfl
  have hretires : (ledger (history none ms (start x))).retires ⟨1⟩ (m, t.1) = true := by
    cases hx
    rfl
  have hstill : t.2.exchange.closed = false := by
    cases hx
    rfl
  obtain ⟨hperm, hcount, -, hadmits, hroom⟩ := run_counts_pending hx none ms hfew
  rw [hwaiting] at hperm hcount hroom
  exact ⟨hfew, hperm, hadmits.full hopen hcount,
    hroom ⟨1⟩ (List.mem_singleton_self _) m hretires hstill⟩

/-- A shutdown retires the call that is pending and makes no room for another one. -/
theorem shutdown_keeps_refusing :
    ∃ x, Exchange.create { Settings.standard with maxPending := 1 } = .ok x ∧
      let codec : Codec Unit Unit :=
        ⟨fun _ => .ok (.success ()), fun _ => false, fun _ => .ok (.malformed "")⟩
      let ms : List (Move Unit Unit) := [.beginAsync "a" codec, .finish 0 (.ok ⟨[]⟩)]
      let m : Move Unit Unit := .step (.act .shutdown) rfl
      let f := run none ms (start x)
      let l := ledger (history none ms (start x))
      let t := f.apply none m
      l.waiting = [⟨1⟩] ∧ l.retires ⟨1⟩ (m, t.1) = true ∧
        f.session.stage.Refuses (.registryFull 1)
          { f.exchange with nextPort := f.exchange.nextPort.next } ∧
        t.2.exchange.pendingCalls = 0 ∧ t.2.session.stage.Refuses .closed t.2.exchange ∧
        ¬ t.2.session.stage.Accepts := by
  refine ⟨_, rfl, rfl, rfl, Stage.refuses_of_openSingle rfl, rfl,
    Stage.refuses_of_openSingle rfl, ?_⟩
  rintro ⟨⟨p, k, x, hok⟩, -⟩
  cases hok

end Floor

end CallExchange
