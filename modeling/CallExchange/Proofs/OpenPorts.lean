import CallExchange.Proofs.Floor.BroadcastLedger

set_option autoImplicit false

/-!
# Open ports

The number of open ports is that of the broadcast ports that were opened and that nothing has
retired. No port outlives what takes from it: a stream that has ended, in whichever way, has left
nothing behind.
-/

namespace CallExchange

variable {α ε : Type}

namespace BroadcastLedger

open Floor

variable {f : Floor α ε} {l : BroadcastLedger} {c : Nat}

theorem Tracks.perm (ht : l.Tracks f) (hs : f.Sound c) :
    (f.exchange.broadcastPorts.filter (· != Exchange.reversePort)).Perm l.opened := by
  refine (List.perm_ext_iff_of_nodup (hs.consistent.ports_nodup.filter _) ht.nodup).2 fun p => ?_
  change p ∈ f.exchange.broadcastPorts.filter _ ↔ _
  rw [List.mem_filter, Exchange.mem_broadcastPorts, hs.consistent.open_iff, Bool.not_eq_true',
    bne_iff_ne, ht.opened, and_comm]

theorem Tracks.openPorts_eq (ht : l.Tracks f) (hs : f.Sound c) :
    f.exchange.openPorts = l.opened.length := by
  rw [Exchange.openPorts_count hs.consistent.ports_nodup, (ht.perm hs).length_eq]

end BroadcastLedger

namespace Floor

variable {f : Floor α ε} {ms : List (Move α ε)} {n c : Nat} {p : PortId} {thread : Option String}

theorem not_holds_run (hn : n < f.session.streams.length) (hfree : ¬ f.Holds ⟨.streams, n⟩)
    (thread : Option String) (ms : List (Move α ε)) :
    ¬ (run thread ms f).Holds ⟨.streams, n⟩ := by
  induction ms generalizing f with
  | nil => exact hfree
  | cons m ms ih =>
    have hshelf := (shelves_apply f thread m).streams
    refine ih (Nat.lt_of_lt_of_le hn hshelf.length_le) fun hholds => ?_
    obtain ⟨st', hst', hholds'⟩ := holds_stream.1 hholds
    obtain ⟨st, hst, hlater⟩ := hshelf.origin .refl hn hst'
    exact hfree (holds_stream.2 ⟨st, hst, hlater.holds hholds'⟩)

/-- The stream `n` is over and has left nothing behind on its port `p`, and nothing of the
exchange. -/
structure NothingLeft (n : Nat) (p : PortId) (f : Floor α ε) : Prop where
  name : f.exchange.portName? p = none
  shut : f.exchange.isOpen p = false
  inbox : f.exchange.inbox p = ⟨[], true⟩
  dropped : ∀ thread v, (f.apply thread (.deliver p v)).1 = .reply (.delivery .dropped)
  free : ¬ f.Holds ⟨.streams, n⟩
  others : f.exchange.isGone = false ↔ ∃ q, q ≠ ⟨.streams, n⟩ ∧ f.Holds q

theorem nothingLeft_of_sealed (hs : f.Sound c) (h : f.Sealed p) (hfree : ¬ f.Holds ⟨.streams, n⟩) :
    f.NothingLeft n p where
  name := by
    have hname := hs.consistent.open_iff p
    rw [h.inbox] at hname
    exact Option.isNone_iff_eq_none.1 (Option.isSome_eq_false_iff.1 hname)
  shut := h.shut
  inbox := h.inbox
  dropped thread v := h.deliver hs thread v
  free := hfree
  others := hs.alive_iff_others hfree

/-- In every run that does not use up the numbers for ports, the open ports are the broadcast ports
that were opened and that nothing has retired since, the one for reverse calls aside. A stream holds
the exchange until it ends, and when it has ended, whatever is done afterwards, its port is not in
the table, its inbox is closed and empty, and what is posted to it is dropped. -/
theorem run_closes_ports {s : Settings} {x : Exchange} (hx : Exchange.create s = .ok x)
    (thread : Option String) (before after : List (Move α ε))
    (hfew : (before ++ after).countP Move.opensPort + 1 < PortId.supply) :
    let f := run thread before (start x)
    let l := broadcastLedger (history thread before (start x))
    (f.exchange.broadcastPorts.filter (· != Exchange.reversePort)).Perm l.opened ∧
      f.exchange.openPorts = l.opened.length ∧
      (∀ n st, f.session.streams[n]?.join = some st →
        l.streams[n]? = some st.port.id ∧ (⟨.streams, n⟩ ∈ l.holders ↔ st.holds = true)) ∧
      ∀ n p, l.streams[n]? = some p → ⟨.streams, n⟩ ∉ l.holders →
        (run thread after f).NothingLeft n p := by
  intro f l
  have hstart : (start x : Floor α ε).Sound ((before ++ after).countP Move.opensPort + 0) :=
    sound_start hx hfew
  rw [countP_opens_append] at hstart
  have hs := hstart.run thread
  have htracks : l.Tracks f := (BroadcastLedger.tracks_start hx).run hstart thread
  refine ⟨htracks.perm hs, htracks.openPorts_eq hs, fun n st hst => ?_, fun n p hp hover => ?_⟩
  · refine ⟨htracks.streams.name n st hst, ?_⟩
    rw [htracks.holders, holds_iff_of_stream hst]
  · have hfree : ¬ f.Holds ⟨.streams, n⟩ := fun hh => hover ((htracks.holders _).2 hh)
    have hn : n < f.session.streams.length := by
      rw [← htracks.streams.length]
      exact (List.getElem?_eq_some_iff.1 hp).1
    exact nothingLeft_of_sealed (hs.run thread) ((htracks.ended n p hp hfree).run hs thread)
      (not_holds_run hn hfree thread after)

/-- An element that cannot be read ends its stream while another value is queued. The port of the
stream is closed and this value is gone, and the other broadcast port stays open. -/
theorem run_closes_ports_of_unread : ∃ x, Exchange.create .standard = .ok x ∧
    let codec : Codec Unit Unit :=
      ⟨fun _ => .ok (.malformed ""), fun _ => false, fun _ => .ok (.malformed "")⟩
    let before : List (Move Unit Unit) := [.beginStream "task" codec, .finish 0 (.ok ⟨[]⟩),
      .step (.openBroadcast "other") rfl, .deliver ⟨1⟩ .null, .deliver ⟨1⟩ .null,
      .step (.next 0) rfl]
    let after : List (Move Unit Unit) := [.deliver ⟨1⟩ .null, .step (.closeStream 0) rfl]
    let f := run none before (start x)
    (before ++ after).countP Move.opensPort + 1 < PortId.supply ∧
      (f.exchange.broadcastPorts.filter (· != Exchange.reversePort)).Perm [⟨2⟩] ∧
      f.exchange.openPorts = 1 ∧ (run none after f).NothingLeft 0 ⟨1⟩ := by
  obtain ⟨x, hx⟩ : ∃ x, Exchange.create .standard = .ok x := ⟨_, rfl⟩
  refine ⟨x, hx, ?_⟩
  intro codec before after f
  have hfew : (before ++ after).countP Move.opensPort + 1 < PortId.supply := by decide
  let l := broadcastLedger (history none before (start x))
  have hopened : l.opened = [⟨2⟩] := by
    cases hx
    decide +kernel
  have hstreams : l.streams = [⟨1⟩] := by
    cases hx
    decide +kernel
  have hholders : l.holders = [⟨.dispatcher, 0⟩] := by
    cases hx
    decide +kernel
  obtain ⟨hperm, hcount, -, hover⟩ := run_closes_ports hx none before after hfew
  rw [hopened] at hperm hcount
  rw [hstreams, hholders] at hover
  exact ⟨hfew, hperm, hcount, hover 0 ⟨1⟩ rfl (by decide)⟩

end Floor

end CallExchange
