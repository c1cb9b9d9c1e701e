import CallExchange.Proofs.Floor.Changes
import CallExchange.Proofs.Floor.Gives
import CallExchange.Proofs.Resolution

set_option autoImplicit false

/-!
# Stale handles

A handle on a port may be kept long after its call is over. The number of a port is given out once,
and so such a handle reaches nothing but what the port was opened for: what is found in a slot or an
inbox was posted to its own port, and a port that has gone dead stays dead.
-/

namespace CallExchange

variable {α ε : Type}

def Delivered (h : List (Move α ε × Answer α ε)) (p : PortId) (v : Value) (d : Delivery) : Prop :=
  ∃ m, m.post? = some (p, v) ∧ (m, .reply (.delivery d)) ∈ h

theorem Delivered.append {p : PortId} {v : Value} {h h' : List (Move α ε × Answer α ε)}
    {d : Delivery}
    (hd : Delivered h p v d) : Delivered (h ++ h') p v d := by
  obtain ⟨m, hm, hmem⟩ := hd
  exact ⟨m, hm, List.mem_append_left _ hmem⟩

namespace Floor

variable {f : Floor α ε} {m : Move α ε} {ms : List (Move α ε)} {n : Nat} {p : PortId} {k : Ticket}
  {v : Value} {thread : Option String}

/-- What is found in a slot was posted to the port that was opened with its ticket, what is found in
an inbox was posted to its own port, and a handle that knows a ticket knows no other port than the
one that was opened with it. -/
structure Traced (os : List (PortId × Ticket)) (h : List (Move α ε × Answer α ε)) (f : Floor α ε) :
    Prop where
  waiting : ∀ p k, f.exchange.ticket? p = some k → (p, k) ∈ os
  slot : ∀ k v, f.exchange.slot k = .ready v → ∃ p, (p, k) ∈ os ∧ Delivered h p v .completed
  taking : ∀ p, (f.exchange.inbox p).closed = false → p = Exchange.reversePort ∨ p ∈ given h
  queue : ∀ p, ∀ v ∈ (f.exchange.inbox p).queue,
    (p = Exchange.reversePort ∨ p ∈ given h) ∧ Delivered h p v .queued
  handle : ∀ q e k, f.handle? q = some e → e.ticket? = some k →
    ∃ p, (p, k) ∈ os ∧ ∀ p', e.port? = some p' → p' = p

section Traced

variable {os : List (PortId × Ticket)} {h : List (Move α ε × Answer α ε)}

theorem Traced.slot_apply (ht : f.Traced os h) (hs : f.Sound (m.opensPort.toNat + n))
    (thread : Option String) (hv : (f.apply thread m).2.exchange.slot k = .ready v) :
    ∃ p, (p, k) ∈ os ∧ Delivered (h ++ [(m, (f.apply thread m).1)]) p v .completed := by
  have hold : f.exchange.slot k = .ready v →
      ∃ p, (p, k) ∈ os ∧ Delivered (h ++ [(m, (f.apply thread m).1)]) p v .completed := by
    intro hv
    obtain ⟨p, hp, hd⟩ := ht.slot k v hv
    exact ⟨p, hp, hd.append⟩
  rcases f.livePost_cases m with hquiet | ⟨q, w, hpost, hlive⟩
  · obtain ⟨ops, he⟩ := hs.effect thread m
    exact hold ((he.nothing_new hs hquiet).1 k v hv)
  · rw [apply_post thread hpost hlive] at hv hold ⊢
    rcases ((f.exchange.post_posted q w).slotChange hs.consistent).ready hv with hv | ⟨p, hp, hk⟩
    · exact hold hv
    · cases hp
      have hcompleted : (f.exchange.post q v).1 = .completed := by
        rw [hs.consistent.post_fst, hk]
        rfl
      refine ⟨q, ht.waiting q k hk, m, hpost, ?_⟩
      rw [hcompleted]
      exact List.mem_concat_self

theorem Traced.queue_apply (ht : f.Traced os h) (hs : f.Sound (m.opensPort.toNat + n))
    (thread : Option String) (hv : v ∈ ((f.apply thread m).2.exchange.inbox p).queue) :
    (p = Exchange.reversePort ∨ p ∈ given h) ∧
      Delivered (h ++ [(m, (f.apply thread m).1)]) p v .queued := by
  have hold : v ∈ (f.exchange.inbox p).queue → (p = Exchange.reversePort ∨ p ∈ given h) ∧
      Delivered (h ++ [(m, (f.apply thread m).1)]) p v .queued := by
    intro hv
    obtain ⟨hp, hd⟩ := ht.queue p v hv
    exact ⟨hp, hd.append⟩
  rcases f.livePost_cases m with hquiet | ⟨q, w, hpost, hlive⟩
  · obtain ⟨ops, he⟩ := hs.effect thread m
    exact hold (((he.nothing_new hs hquiet).2 p).mem hv)
  · rw [apply_post thread hpost hlive] at hv hold ⊢
    rcases (f.exchange.post_posted q w).inboxChange.mem hv with hv | ⟨hp, hb⟩
    · exact hold hv
    · cases hp
      have hname : (f.exchange.portName? p).isSome = true := by
        rw [hs.consistent.open_iff, hb]
        rfl
      have hqueued : (f.exchange.post p v).1 = .queued := by
        rw [hs.consistent.post_fst, hname]
        cases htick : (f.exchange.ticket? p).isSome with
        | false => rfl
        | true =>
          rw [hs.consistent.name_of_pending htick] at hname
          cases hname
      refine ⟨ht.taking p hb, m, hpost, ?_⟩
      rw [hqueued]
      exact List.mem_concat_self

theorem Traced.handle_apply (ht : f.Traced os h) (hs : f.Sound (m.opensPort.toNat + n))
    (thread : Option String) {q : Place} {e : Handle α ε}
    (hq : (f.apply thread m).2.handle? q = some e) (hk : e.ticket? = some k) :
    ∃ p, (p, k) ∈ os ++ (f.opened? m).toList ∧ ∀ p', e.port? = some p' → p' = p := by
  obtain ⟨ops, he⟩ := hs.effect thread m
  rcases he.born q e hq with hold | hfresh | ⟨q₀, e₀, -, hq₀, hfrom⟩
  · obtain ⟨p, hp, hport⟩ := ht.handle q e k hold hk
    exact ⟨p, List.mem_append_left _ hp, hport⟩
  · obtain ⟨p, ho, hport⟩ := hs.opened_of_fresh hfresh hk
    rw [ho]
    exact ⟨p, List.mem_concat_self, hport⟩
  · obtain ⟨p, hp, hport⟩ := ht.handle q₀ e₀ k hq₀ (hfrom.ticket k hk)
    exact ⟨p, List.mem_append_left _ hp, fun p' hp' => hport p' (hfrom.port p' hp')⟩

theorem Traced.apply (ht : f.Traced os h) (hs : f.Sound (m.opensPort.toNat + n))
    (thread : Option String) :
    (f.apply thread m).2.Traced (os ++ (f.opened? m).toList) (h ++ [(m, (f.apply thread m).1)]) where
  waiting p k hk := by
    rcases (hs.gives thread).ticket p k hk with hold | hnew
    · exact List.mem_append_left _ (ht.waiting p k hold)
    · rw [hnew]
      exact List.mem_concat_self
  slot k v hv := by
    obtain ⟨p, hp, hd⟩ := ht.slot_apply hs thread hv
    exact ⟨p, List.mem_append_left _ hp, hd⟩
  taking p hb := by
    rw [given_append]
    rcases (hs.gives thread).inbox p hb with hold | hnew
    · exact (ht.taking p hold).imp_right (List.mem_append_left _)
    · refine .inr (List.mem_append_right _ ?_)
      rw [given_cons, hnew]
      exact List.mem_cons_self
  queue p v hv := by
    obtain ⟨hp, hd⟩ := ht.queue_apply hs thread hv
    rw [given_append]
    exact ⟨hp.imp_right (List.mem_append_left _), hd⟩
  handle q e k hq hk := ht.handle_apply hs thread hq hk

theorem Traced.run (ht : f.Traced os h) (hs : f.Sound (ms.countP Move.opensPort + n))
    (thread : Option String) :
    (Floor.run thread ms f).Traced (os ++ openings thread ms f) (h ++ history thread ms f) := by
  induction ms generalizing f os h with
  | nil =>
    rw [openings, history, List.append_nil, List.append_nil]
    exact ht
  | cons m ms ih =>
    rw [countP_opens_cons] at hs
    have htail := ih (ht.apply hs thread) (hs.apply thread)
    rw [List.append_assoc, List.append_assoc] at htail
    exact htail

theorem traced_start {s : Settings} {x : Exchange} (hx : Exchange.create s = .ok x) :
    (start x : Floor α ε).Traced [] [] := by
  have hcons := Exchange.consistent_create hx
  have hreverse : ∀ p, x.hasInbox p = true → p = Exchange.reversePort := by
    intro p hp
    obtain ⟨-, rfl⟩ := Exchange.create_eq hx
    by_contra hne
    simp [Exchange.hasInbox, List.lookup_cons, beq_false_of_ne hne] at hp
  refine ⟨?_, ?_, ?_, ?_, ?_⟩
  · intro p k hk
    obtain ⟨-, rfl⟩ := Exchange.create_eq hx
    cases hk
  · intro k v hv
    obtain ⟨-, rfl⟩ := Exchange.create_eq hx
    cases hv
  · exact fun p hb => .inl (hreverse p (Exchange.hasInbox_of_open _ p hb))
  · intro p v hv
    have hempty : (x.inbox p).queue = [] := by
      cases hi : x.hasInbox p with
      | false => rw [Exchange.inbox_of_not_hasInbox _ p hi]
      | true =>
        rw [hreverse p hi]
        obtain ⟨-, rfl⟩ := Exchange.create_eq hx
        rfl
    change v ∈ (x.inbox p).queue at hv
    rw [hempty] at hv
    cases hv
  · intro q e k hq hk
    obtain ⟨-, rfl⟩ := handle?_start hq
    cases hk

end Traced

theorem shut_run (thread : Option String) (hs : f.Sound (ms.countP Move.opensPort + n))
    (hp : f.exchange.Issued p) (hshut : f.exchange.isOpen p = false) :
    (run thread ms f).exchange.isOpen p = false := by
  induction ms generalizing f with
  | nil => exact hshut
  | cons m ms ih =>
    rw [countP_opens_cons] at hs
    obtain ⟨ops, he⟩ := hs.effect thread m
    exact ih (hs.apply thread) (issued_apply hs hp thread)
      (he.runs.stays_shut hs.consistent (he.fit hs) hp hshut)

end Floor

namespace Exchange

variable {x : Exchange} {p : PortId}

theorem Consistent.isDead_eq (h : x.Consistent) (p : PortId) : x.isDead p = !x.isOpen p := by
  rw [isDead]
  cases hgone : x.isGone with
  | false => rfl
  | true =>
    have hclosed := h.gone_closed hgone
    rw [isOpen_eq, h.closed_tickets hclosed, h.closed_names hclosed]
    rfl

theorem Consistent.deliver_dead (h : x.Consistent) (hd : x.isDead p = true) (v : Value) :
    (x.deliver p v).1 = .dropped := by
  rw [h.isDead_eq, Bool.not_eq_true'] at hd
  unfold deliver
  split
  · rfl
  · by_contra hlive
    rw [(h.routes p v).open_iff.2 hlive] at hd
    cases hd

theorem isIssued_iff : x.isIssued p = true ↔ x.Issued p := by
  rw [isIssued, Bool.and_eq_true, Bool.not_eq_true', PortId.isAbsent, decide_eq_false_iff_not,
    decide_eq_true_eq, Int64.lt_iff_toInt_lt, Int64.lt_iff_toInt_lt, Int.not_lt]
  rfl

theorem Consistent.issued_reverse (h : x.Consistent) : x.Issued reversePort :=
  ⟨Int.le_refl 0, h.next_pos⟩

end Exchange

namespace Floor

variable {thread : Option String}

/-- In every run that does not use up the numbers for ports, the numbers given out increase and are
never the one for reverse calls; whatever is found was posted to the port that it is found on; and a
port that has gone dead stays dead, whatever is done afterwards, so that nothing posted through an
old handle on it arrives anywhere. -/
theorem run_never_reuses {s : Settings} {x : Exchange} (hx : Exchange.create s = .ok x)
    (thread : Option String) (before after : List (Move α ε))
    (hfew : (before ++ after).countP Move.opensPort + 1 < PortId.supply) :
    let f := run thread before (start x)
    let h := history thread before (start x)
    let os := openings thread before (start x)
    ((given h).Pairwise (fun p q => p.raw < q.raw) ∧ (∀ p ∈ given h, p ≠ Exchange.reversePort) ∧
      (∀ p, p = Exchange.reversePort ∨ p ∈ given h → f.exchange.isIssued p = true) ∧
      (os.map Prod.fst).Sublist (given h) ∧ os.Pairwise (fun a b => a.2 < b.2)) ∧
    f.Traced os h ∧
    ∀ p, f.exchange.isIssued p = true → f.exchange.isDead p = true →
      (run thread after f).exchange.isDead p = true ∧
        ∀ v, ((run thread after f).apply thread (.deliver p v)).1 = .reply (.delivery .dropped) := by
  intro f h os
  have hs : (start x : Floor α ε).Sound ((before ++ after).countP Move.opensPort + 0) :=
    sound_start hx hfew
  rw [countP_opens_append] at hs
  have hf : f.Sound (after.countP Move.opensPort + 0) := hs.run thread
  refine ⟨⟨pairwise_given thread hs, ?_, ?_, openings_sublist thread hs, pairwise_openings thread hs⟩,
    (traced_start hx).run hs thread, ?_⟩
  · intro p hp he
    have hlt := lt_of_given hs hs.consistent.issued_reverse p hp
    rw [he] at hlt
    exact Int.lt_irrefl _ hlt
  · rintro p (rfl | hp)
    · exact Exchange.isIssued_iff.2 hf.consistent.issued_reverse
    · exact Exchange.isIssued_iff.2 (issued_given hs hp)
  · intro p hp hd
    rw [hf.consistent.isDead_eq, Bool.not_eq_true'] at hd
    have hlater := (hf.run thread).consistent
    have hdead : (run thread after f).exchange.isDead p = true := by
      rw [hlater.isDead_eq, shut_run thread hf (Exchange.isIssued_iff.1 hp) hd]
      rfl
    refine ⟨hdead, fun v => ?_⟩
    change Answer.reply (.delivery ((run thread after f).exchange.deliver p v).1) = _
    rw [hlater.deliver_dead hdead]

/-- Two ports of which the first is closed and the second gets its delivery; then another one is
opened, and everything ends. -/
theorem run_never_reuses_after_close : ∃ x, Exchange.create .standard = .ok x ∧
    let before : List (Move Unit Unit) :=
      [.step .openSingle rfl, .step .openSingle rfl, .step (.act (.closePort ⟨1⟩)) rfl,
        .deliver ⟨2⟩ .null]
    let after : List (Move Unit Unit) :=
      [.step .openSingle rfl, .step .shutdownDispatcher rfl, .step .dropDispatcher rfl]
    let f := run none before (start x)
    (before ++ after).countP Move.opensPort + 1 < PortId.supply ∧
      given (history none before (start x)) = [⟨1⟩, ⟨2⟩] ∧ f.exchange.slot 1 = .ready .null ∧
      Delivered (history none before (start x)) ⟨2⟩ .null .completed ∧
      f.exchange.isIssued ⟨1⟩ = true ∧ f.exchange.isDead ⟨1⟩ = true ∧
      (run none after f).exchange.isDead ⟨1⟩ = true := by
  obtain ⟨x, hx⟩ : ∃ x, Exchange.create .standard = .ok x := ⟨_, rfl⟩
  refine ⟨x, hx, ?_⟩
  intro before after f
  have hfew : (before ++ after).countP Move.opensPort + 1 < PortId.supply := by decide
  obtain ⟨-, htraced, hdead⟩ := run_never_reuses hx none before after hfew
  cases hx
  have hslot : f.exchange.slot 1 = .ready .null := rfl
  obtain ⟨p, hp, hdelivered⟩ := htraced.slot 1 .null hslot
  have hpair : (p, 1) ∈ [((⟨1⟩ : PortId), (0 : Ticket)), (⟨2⟩, 1)] := hp
  have hp2 : p = ⟨2⟩ := by simpa using hpair
  subst hp2
  have hissued : f.exchange.isIssued ⟨1⟩ = true := rfl
  have hd : f.exchange.isDead ⟨1⟩ = true := rfl
  exact ⟨hfew, rfl, hslot, hdelivered, hissued, hd, (hdead ⟨1⟩ hissued hd).1⟩

end Floor

end CallExchange
