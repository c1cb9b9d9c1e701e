import CallExchange.Proofs.Exchange.Changes

set_option autoImplicit false

/-!
# Room for calls

No more ports wait for one delivery than there may be. A port that would be one too many is refused,
which takes a number and nothing else; as long as there is room, only a shutdown keeps a port from
being opened.
-/

namespace CallExchange

namespace Pending

/-- Up to `limit` ports may be registered, and no more are. -/
structure Within (limit : UInt64) (r : Pending) : Prop where
  limit_eq : r.limit = limit
  size : r.size ≤ limit.toNat

namespace Within

variable {limit : UInt64} {r r' : Pending} {p : PortId} {k : Ticket}

theorem empty (limit : UInt64) : (Pending.empty limit).Within limit := ⟨rfl, Nat.zero_le _⟩

theorem register (h : r.Within limit) (hr : r.register p = .ok (k, r')) : r'.Within limit := by
  obtain ⟨hroom, -, -, rfl⟩ := register_eq_ok hr
  rw [h.limit_eq] at hroom
  refine ⟨h.limit_eq, ?_⟩
  change (r.waiting ++ [_]).length ≤ _
  rw [List.length_append, List.length_singleton]
  exact hroom

theorem retire {w : Option Waker} {f : OneShot Value → OneShot Value × Option Waker}
    (h : r.Within limit) (hr : r.retire? p f = some (w, r')) : r'.Within limit := by
  obtain ⟨k, -, -, rfl⟩ := retire?_eq_some hr
  exact ⟨h.limit_eq, Nat.le_trans (List.length_filter_le _ _) h.size⟩

theorem giveUp {acc : List Waker × Pending} (h : acc.2.Within limit) (e : PortId × Ticket) :
    (giveUp acc e).2.Within limit := by
  unfold Pending.giveUp
  split
  · rename_i hr
    exact h.retire hr
  · exact h

theorem abandonAll (h : r.Within limit) : r.abandonAll.2.Within limit := by
  have hall : ∀ (es : List (PortId × Ticket)) (acc : List Waker × Pending),
      acc.2.Within limit → (es.foldl Pending.giveUp acc).2.Within limit := by
    intro es
    induction es with
    | nil => exact fun _ h => h
    | cons e es ih => exact fun acc h => ih _ (h.giveUp e)
  exact hall r.waiting ([], r) h

end Within

end Pending

namespace Exchange

variable {x y : Exchange} {limit : UInt64} {p : PortId} {ops : List Op}

theorem OpenedSingle.within {a : Except Fault (PortId × Ticket)} (ho : OpenedSingle x a y)
    (h : x.pending.Within limit) : y.pending.Within limit := by
  cases ho with
  | closed hx => exact h
  | refused e hx hr => exact h
  | opened k r hx hr => exact h.register hr

theorem Posted.within {v : Value} {d : Delivery} (hp : Posted x p v d y)
    (h : x.pending.Within limit) : y.pending.Within limit := by
  cases hp with
  | completed w r hx hr =>
    rw [pending_congr (core_ring _)]
    exact h.retire hr
  | queued hx ht hn hb =>
    rw [pending_congr (core_ring _)]
    exact h
  | dropped why hd =>
    rw [pending_congr (core_drop x p why)]
    exact h

theorem within_closePort (h : x.pending.Within limit) (p : PortId) :
    (x.closePort p).2.pending.Within limit := by
  by_cases hp : p = reversePort
  · rw [hp]
    exact h
  · rw [← x.pending_closeBroadcast p] at h
    rw [x.closePort_snd hp]
    rcases (x.closeBroadcast p).2.cancelPending_eq p with ⟨he, -⟩ | ⟨w, r, hr, he⟩ <;> rw [he]
    · exact h
    · exact h.retire hr

theorem Broadcast.within_close (h : x.pending.Within limit) (b : Broadcast) :
    (b.close x).2.pending.Within limit := by
  obtain ⟨y, z, -, hy, hz, hcore⟩ := b.close_eq x
  have hwithin : y.pending.Within limit := hy ▸ h
  rw [pending_congr hcore]
  change z.pending.Within limit
  rw [hz]
  split
  · exact hwithin
  · exact within_closePort hwithin b.id

theorem within_shutdown (h : x.pending.Within limit) : x.shutdown.pending.Within limit := by
  cases hx : x.closed with
  | true => rwa [shutdown_of_closed hx]
  | false =>
    rw [pending_congr (core_shutdown hx)]
    change (closeInboxes _ _).pending.Within limit
    rw [pending_closeInboxes]
    exact h.abandonAll

theorem Op.within (o : Op) (h : x.pending.Within limit) : (o.exec x).pending.Within limit := by
  cases o with
  | openSingle => exact x.openSingle_opened.within h
  | openBroadcast task =>
    change (x.openBroadcast task).2.pending.Within limit
    unfold Exchange.openBroadcast
    split <;> exact h
  | post p v => exact (x.post_posted p v).within h
  | closePort p => exact within_closePort h p
  | closeBroadcast b => exact Broadcast.within_close h b
  | read k r => exact ⟨h.limit_eq, h.size⟩
  | shutdown => exact within_shutdown h
  | release =>
    change x.release.pending.Within limit
    unfold Exchange.release
    split
    · exact h
    · exact within_shutdown h
    · exact h
  | receive | hold => exact h

theorem Runs.within (hr : Runs ops x y) (hx : x.Consistent) (hf : Fit ops x)
    (h : x.pending.Within limit) : y.pending.Within limit :=
  hr.preserves (P := fun z => z.pending.Within limit) hx hf
    (fun hc ha => by rwa [pending_congr hc]) (fun o _ _ _ _ ha => o.within ha) h

theorem openSingle_closed (hx : x.closed = true) : x.openSingle = (.error .closed, x) := by
  rw [openSingle, if_pos hx]

theorem openSingle_full (hx : x.closed = false) (h : x.pending.Within limit)
    (hfull : x.pendingCalls = limit.toNat) :
    x.openSingle = (.error (.registryFull limit), { x with nextPort := x.nextPort.next }) := by
  have hregister : x.pending.register x.nextPort = .error (.registryFull limit) := by
    have hle : x.pending.limit.toNat ≤ x.pending.size := by
      rw [h.limit_eq]
      exact Nat.le_of_eq hfull.symm
    rw [Pending.register, if_pos hle, h.limit_eq]
  rw [openSingle, if_neg (Bool.eq_false_iff.1 hx)]
  dsimp only [allocate]
  rw [hregister]

theorem openSingle_room (hcons : x.Consistent) (hx : x.closed = false) (h : x.pending.Within limit)
    (hroom : x.pendingCalls ≠ limit.toNat) : ∃ k y, x.openSingle = (.ok (x.nextPort, k), y) := by
  have hregister : x.pending.register x.nextPort = .ok (x.pending.slots.length, { x.pending with
      waiting := x.pending.waiting ++ [(x.nextPort, x.pending.slots.length)]
      slots := x.pending.slots ++ [.fresh] }) := by
    have hlt : ¬ x.pending.limit.toNat ≤ x.pending.size := by
      have hsize := h.size
      rw [h.limit_eq]
      change x.pending.size ≠ _ at hroom
      omega
    have hnew : x.pending.contains x.nextPort = false := by
      rw [Pending.contains_eq, show x.pending.ticket? x.nextPort = none from hcons.next_unused.1]
      rfl
    rw [Pending.register, if_neg hlt, hnew, if_neg Bool.false_ne_true]
  rw [openSingle, if_neg (Bool.eq_false_iff.1 hx)]
  dsimp only [allocate]
  rw [hregister]
  exact ⟨_, _, rfl⟩

end Exchange

end CallExchange
