import CallExchange.Proofs.Sessions

set_option autoImplicit false

/-!
# The tables of an exchange

What holds of the two tables of an exchange, of its inboxes and of the slots of its calls in every
state of every run, also while the entries of calls and callbacks run.
-/

namespace CallExchange

variable {α ε : Type}

namespace Exchange

def pendingPorts (x : Exchange) : List PortId := x.pending.waiting.map Prod.fst

def broadcastPorts (x : Exchange) : List PortId := x.ports.map Prod.fst

/-- The tables, the inboxes and the closed flag are in step. -/
structure Represented (x : Exchange) : Prop where
  disjoint : ∀ p ∈ x.pendingPorts, p ∉ x.broadcastPorts
  issued : ∀ p ∈ x.pendingPorts ++ x.broadcastPorts, 0 ≤ p.raw ∧ p.raw < x.nextPort.raw
  reverse_not_pending : reversePort ∉ x.pendingPorts
  reverse_open : reversePort ∈ x.broadcastPorts ↔ x.closed = false
  broadcast_open : ∀ p, p ∈ x.broadcastPorts ↔ (x.inbox p).closed = false
  closed_empty : x.closed = true → x.pendingPorts = [] ∧ x.broadcastPorts = []
  /-- What is taken off for the port for reverse calls is there to be taken off. -/
  openPorts : x.openPorts + (if reversePort ∈ x.broadcastPorts then 1 else 0) =
    x.broadcastPorts.length
  openPorts_count : x.openPorts = (x.broadcastPorts.filter (· != reversePort)).length
  single : ∀ p, x.openSingle.1 ≠ .error (.duplicatePort p)

variable {x : Exchange} {p : PortId} {k : Ticket}

theorem mem_pendingPorts : p ∈ x.pendingPorts ↔ (x.ticket? p).isSome = true :=
  Lookup.lookup_isSome_iff_mem.symm

theorem mem_broadcastPorts : p ∈ x.broadcastPorts ↔ (x.portName? p).isSome = true :=
  Lookup.lookup_isSome_iff_mem.symm

theorem Issued.raw_bounds (h : x.Issued p) : 0 ≤ p.raw ∧ p.raw < x.nextPort.raw := by
  rw [Int64.le_iff_toInt_le, Int64.lt_iff_toInt_lt]
  exact h

theorem openPorts_eq (x : Exchange) :
    x.openPorts = x.broadcastPorts.length - (if reversePort ∈ x.broadcastPorts then 1 else 0) := by
  have hlength : x.broadcastPorts.length = x.ports.length := List.length_map _
  rw [openPorts, hlength]
  by_cases hp : reversePort ∈ x.broadcastPorts
  · rw [mem_broadcastPorts.1 hp, if_pos hp]
    rfl
  · have hn : (x.portName? reversePort).isSome = false := by
      rw [← Bool.not_eq_true, ← mem_broadcastPorts]
      exact hp
    rw [hn, if_neg hp]
    rfl

theorem openPorts_add (x : Exchange) :
    x.openPorts + (if reversePort ∈ x.broadcastPorts then 1 else 0) = x.broadcastPorts.length := by
  rw [openPorts_eq]
  split
  · rename_i hp
    exact Nat.sub_add_cancel (List.length_pos_of_mem hp)
  · rfl

theorem openPorts_count (hd : (x.ports.map Prod.fst).Nodup) :
    x.openPorts = (x.broadcastPorts.filter (· != reversePort)).length := by
  have herase := List.Nodup.erase_eq_filter hd reversePort
  rw [openPorts_eq, broadcastPorts, ← herase, List.length_erase]
  split <;> rfl

theorem Consistent.represented (h : x.Consistent) : x.Represented where
  disjoint p hp hb := by
    rw [mem_pendingPorts] at hp
    rw [mem_broadcastPorts, h.name_of_pending hp] at hb
    cases hb
  issued p hp := by
    rcases List.mem_append.1 hp with hp | hp
    · exact (h.pending_issued p (mem_pendingPorts.1 hp)).raw_bounds
    · exact (h.inbox_issued p (h.hasInbox_of_name (mem_broadcastPorts.1 hp))).raw_bounds
  reverse_not_pending hp := by
    rw [mem_pendingPorts, h.reverse_not_pending] at hp
    cases hp
  reverse_open := by
    rw [mem_broadcastPorts, h.reverse_open, Bool.not_eq_true']
  broadcast_open p := by
    rw [mem_broadcastPorts, h.open_iff p, Bool.not_eq_true']
  closed_empty hc := by
    rw [pendingPorts, broadcastPorts, h.waiting_nil hc, h.ports_nil hc]
    exact ⟨rfl, rfl⟩
  openPorts := x.openPorts_add
  openPorts_count := openPorts_count h.ports_nodup
  single := x.openSingle_opened.ne_duplicate h

theorem tied_openSingle (h : x.Consistent) (hr : x.HasRoom)
    (ho : x.openSingle.1 = .ok (p, k)) : Tied p k x.openSingle.2 := by
  obtain ⟨hp, hk, -, r, hreg, -, hx⟩ := openSingle_ok ho
  have hcons := (x.openSingle_opened.consistent h hr).pending
  rw [hx] at hcons ⊢
  have hticket : r.ticket? p = some k := by
    rw [Pending.ticket?_register hreg, if_pos rfl]
  refine ⟨?_, ?_, ?_, ?_⟩
  · rw [hp]
    exact issued_new h hr rfl
  · exact hcons.lt hticket
  · intro j hj
    exact (Option.some.inj (hticket.symm.trans hj)).symm
  · intro q hq
    exact hcons.tickets_inj q p k hq hticket

end Exchange

namespace Floor

variable {f : Floor α ε} {m : Move α ε} {n : Nat} {p : PortId} {k : Ticket}
  (thread : Option String)

def opened? (f : Floor α ε) : Move α ε → Option (PortId × Ticket)
  | .beginAsync _ _ | .step .openSingle _ =>
    if f.session.dispatcher then f.exchange.openSingle.1.toOption else none
  | _ => none

theorem of_dispatcher {β : Type} {r : Except Fault β} {b : β}
    (h : (if f.session.dispatcher then r.toOption else none) = some b) :
    f.session.dispatcher = true ∧ r = .ok b := by
  split at h
  · rename_i hd
    cases r with
    | error e => cases h
    | ok b =>
      cases h
      exact ⟨hd, rfl⟩
  · cases h

theorem apply_beginAsync (task : String) (codec : Codec α ε) (hd : f.session.dispatcher = true)
    (h : f.exchange.openSingle.1 = .ok (p, k)) :
    ∃ x, x.core = f.exchange.openSingle.2.core ∧
      (f.apply thread (.beginAsync task codec)).2 =
        (f.onStage (f.session.stage.put x)).launch (.async task codec p k) := by
  obtain ⟨x, hx, hbegin⟩ := Exchange.beginAsync_ok task h
  refine ⟨x, hx, ?_⟩
  change (f.begin _ _ _).2 = _
  unfold Floor.begin
  rw [if_pos hd, hbegin]
  rfl

theorem exchange_openSingle {h : (Step.openSingle : Step α ε).isElementary = true}
    (hd : f.session.dispatcher = true) :
    (f.apply thread (.step .openSingle h)).2.exchange = f.exchange.openSingle.2 := by
  change (f.turn (f.session.withDispatcher _)).2.exchange = _
  rw [Session.withDispatcher, if_pos hd, session_exchange]
  cases f.exchange.openSingle.1 <;> rfl

theorem opened?_eq_some (h : f.opened? m = some (p, k)) :
    m.opensPort = true ∧ f.session.dispatcher = true ∧ f.exchange.openSingle.1 = .ok (p, k) ∧
      (f.apply thread m).2.exchange.core = f.exchange.openSingle.2.core := by
  unfold opened? at h
  split at h
  · obtain ⟨hd, ho⟩ := of_dispatcher h
    obtain ⟨x, hx, happly⟩ := apply_beginAsync thread _ _ hd ho
    refine ⟨rfl, hd, ho, ?_⟩
    rw [happly]
    exact hx
  · obtain ⟨hd, ho⟩ := of_dispatcher h
    exact ⟨rfl, hd, ho, congrArg Exchange.core (exchange_openSingle thread hd)⟩
  · cases h

theorem tied_opened (hs : f.Sound (m.opensPort.toNat + n)) (h : f.opened? m = some (p, k)) :
    Exchange.Tied p k (f.apply thread m).2.exchange := by
  obtain ⟨hm, -, ho, hcore⟩ := opened?_eq_some thread h
  exact (Exchange.tied_openSingle hs.consistent (hs.hasRoom hm) ho).grows (.of_core hcore)

theorem tied_apply (hs : f.Sound (m.opensPort.toNat + n)) (ht : Exchange.Tied p k f.exchange) :
    Exchange.Tied p k (f.apply thread m).2.exchange := by
  obtain ⟨ops, he⟩ := hs.effect thread m
  exact ht.grows (he.runs.grows hs.consistent (he.fit hs))

theorem tied_run {ms : List (Move α ε)} (hs : f.Sound (ms.countP Move.opensPort + n))
    (ht : Exchange.Tied p k f.exchange) : Exchange.Tied p k (run thread ms f).exchange := by
  induction ms generalizing f with
  | nil => exact ht
  | cons m ms ih =>
    rw [countP_opens_cons] at hs
    exact ih (hs.apply thread) (tied_apply thread hs ht)

theorem represented_run {s : Settings} {x : Exchange} (hx : Exchange.create s = .ok x)
    (thread : Option String) {ms : List (Move α ε)}
    (hfew : ms.countP Move.opensPort + 1 < PortId.supply) :
    (run thread ms (start x)).exchange.Represented := by
  have hs : (start x : Floor α ε).Sound (ms.countP Move.opensPort + 0) := sound_start hx hfew
  exact (hs.run thread).consistent.represented

/-- In every state of every run that opens fewer than 2 ^ 63 ports, the one for reverse calls
included, the tables are in step, and the ports opened for one delivery wait for it as long as their
slots are not settled. So the tables are in step after every session too. -/
theorem run_represented {s : Settings} {x : Exchange} (hx : Exchange.create s = .ok x)
    (thread : Option String) (ms : List (Move α ε))
    (hfew : ms.countP Move.opensPort + 1 < PortId.supply) :
    (run thread ms (start x)).exchange.Represented ∧
      (∀ before m after p k, ms = before ++ m :: after →
        (run thread before (start x)).opened? m = some (p, k) →
          (p ∈ (run thread ms (start x)).exchange.pendingPorts ↔
            ((run thread ms (start x)).exchange.pending.slot k).isSettled = false)) ∧
      ∀ bound (steps : List (Step α ε × Option Script)), steps.length + 1 < PortId.supply →
        ((Session.start x).run bound thread steps).exchange.Represented := by
  have hs : (start x : Floor α ε).Sound (ms.countP Move.opensPort + 0) := sound_start hx hfew
  have hsound := hs.run thread
  refine ⟨represented_run hx thread hfew, ?_, ?_⟩
  · rintro before m after p k rfl hopen
    rw [countP_opens_append] at hs
    have hbefore := hs.run thread
    rw [countP_opens_cons] at hbefore
    have htied := tied_run thread (hbefore.apply thread) (tied_opened thread hbefore hopen)
    rw [run_append] at hsound ⊢
    change Sound 0 (run thread after _) at hsound
    change _ ∈ (run thread after _).exchange.pendingPorts ↔ _
    have hiff := htied.pending_iff hsound.consistent
    rw [Exchange.mem_pendingPorts, hiff, Bool.not_eq_true']
    rfl
  · intro bound steps hsteps
    obtain ⟨ms', j, hms, hrun⟩ := Session.run_eq_moves hx bound thread steps hsteps
    have hrep := represented_run hx thread hms
    rw [hrun] at hrep
    exact hrep

/-- Two ports for one delivery each, of which the first gets it. -/
theorem run_represented_two_singles : ∃ x, Exchange.create .standard = .ok x ∧
    let ms : List (Move Unit Unit) :=
      [.step .openSingle rfl, .step .openSingle rfl, .deliver ⟨1⟩ .null]
    let y := (run none ms (start x)).exchange
    ms.countP Move.opensPort + 1 < PortId.supply ∧ y.Represented ∧ y.pendingPorts = [⟨2⟩] ∧
      (⟨1⟩ ∈ y.pendingPorts ↔ (y.pending.slot 0).isSettled = false) ∧
      (⟨2⟩ ∈ y.pendingPorts ↔ (y.pending.slot 1).isSettled = false) := by
  obtain ⟨x, hx⟩ : ∃ x, Exchange.create .standard = .ok x := ⟨_, rfl⟩
  refine ⟨x, hx, ?_⟩
  intro ms y
  have hfew : ms.countP Move.opensPort + 1 < PortId.supply := by decide
  obtain ⟨hrep, hsingle, -⟩ := run_represented hx none ms hfew
  cases hx
  exact ⟨hfew, hrep, rfl, hsingle [] _ _ ⟨1⟩ 0 rfl rfl,
    hsingle [.step .openSingle rfl] _ _ ⟨2⟩ 1 rfl rfl⟩

end Floor

end CallExchange
