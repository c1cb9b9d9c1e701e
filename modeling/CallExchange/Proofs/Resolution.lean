import CallExchange.Proofs.Floor.Watch

set_option autoImplicit false

/-!
# How a deferred result comes out

A deferred result is settled by whatever comes first, a delivery to its port or the port being torn
down, and by nothing after that. What a read answers follows from what happened since the call
began: from the first such event and from whether the result was read before.
-/

namespace CallExchange

variable {α ε : Type}

def Reader.resultOf (r : Reader) : Decoded α ε → CallResult α ε
  | .success a => .ok a
  | .application e => .error (.application e)
  | .abort message => .error (.fatal ⟨r.task, message, r.thread.getD "<unnamed>"⟩)
  | .malformed why => .error (.protocol (r.task ++ ": " ++ why))

theorem Reader.lift_fst (r : Reader) (d : Decoded α ε) (x : Exchange) :
    (r.lift d x).1 = r.resultOf d := by
  cases d <;> rfl

namespace Move

/-- What a move made of the call that waits on `p`: it is completed with a value, or given up. -/
def settles? (p : PortId) (e : Move α ε × Answer α ε) : Option (Option Value) :=
  match completes? p e with
  | some v => some (some v)
  | none => if tearsDown p e then some none else none

/-- What a read of a deferred result answers as long as there is nothing to read. A timed wait
without a deadline is no read. -/
def late? : Move α ε → Option (Answer α ε)
  | .step (.tryTake _) _ | .step (.poll _ _) _ => some .pending
  | .step (.waitTimeout _ t) _ => if t.noDeadline then none else some .pending
  | .step (.wait _) _ => some .wouldBlock
  | _ => none

def reads? (n : Nat) (m : Move α ε) : Option (Answer α ε) :=
  if m.place? = some ⟨.deferreds, n⟩ then m.late? else none

/-- Whether a move read the result `n` and found something. -/
def resolves (n : Nat) : Move α ε × Answer α ε → Bool
  | (m, .result _) => (m.reads? n).isSome
  | _ => false

/-- Whether a move gave up the result that it used. A wait that would block did not. -/
def isLast : Move α ε × Answer α ε → Bool
  | (.step (.dropDeferred _) _, _) => true
  | (.step (.wait _) _, .wouldBlock) => false
  | (.step (.wait _) _, _) => true
  | _ => false

def givesUp (n : Nat) (e : Move α ε × Answer α ε) : Bool :=
  e.1.place? = some ⟨.deferreds, n⟩ && isLast e

end Move

/-- What decided the call that waits on `p`, if anything did. -/
def fate (p : PortId) (h : List (Move α ε × Answer α ε)) : Option (Option Value) :=
  h.findSome? (Move.settles? p)

def spent (n : Nat) (h : List (Move α ε × Answer α ε)) : Bool := h.any (Move.resolves n)

/-- What a read has to answer: a result is found once, and a call that is not decided yet has none.
-/
def dueAnswer (read : Value → CallResult α ε) (late : Answer α ε) (spent : Bool) :
    Option (Option Value) → Answer α ε
  | none => if spent then .result (.error .disconnected) else late
  | some none => .result (.error .disconnected)
  | some (some v) => .result (if spent then .error .disconnected else read v)

/-- What is in the slot of a call, by what decided the call and whether it was read. -/
inductive Standing : Option (Option Value) → Bool → OneShot Value → Prop where
  | open (s : OneShot Value) (hs : s.isSettled = false) : Standing none false s
  | ready (v : Value) : Standing (some (some v)) false (.ready v)
  | taken (v : Value) : Standing (some (some v)) true .taken
  | abandoned (b : Bool) : Standing (some none) b .abandoned

namespace Standing

variable {decided : Option (Option Value)} {spent : Bool} {s s' : OneShot Value}

theorem slotStep {p : PortId} {e : Move α ε × Answer α ε} (h : Standing decided spent s)
    (hs : Floor.SlotStep p e s s') : Standing (decided.or (Move.settles? p e)) spent s' := by
  cases hs with
  | completed v hopen he =>
    cases h with
    | «open» s _ =>
      rw [Move.settles?, he]
      exact .ready v
    | _ => cases hopen
  | torn he ht =>
    rw [Move.settles?, he, ht]
    cases h with
    | «open» s hs =>
      rw [show s.abandon.1 = .abandoned by cases s <;> first | rfl | cases hs]
      exact .abandoned false
    | ready v => exact .ready v
    | taken v => exact .taken v
    | abandoned => exact .abandoned _
  | same he ht =>
    rw [Move.settles?, he, ht]
    change Standing (decided.or none) spent s
    rw [Option.or_none]
    exact h

end Standing

def resolved (read : Value → CallResult α ε) : OneShot.Verdict Value → CallResult α ε
  | .value v => read v
  | .abandoned => .error .disconnected

def TakesSlot (s : OneShot Value) (r : Option (OneShot.Verdict Value) × OneShot Value) : Prop :=
  if s.isSettled then r = s.take else r.1 = none ∧ r.2.isSettled = false

theorem takesSlot_take (s : OneShot Value) : TakesSlot s s.take := by
  cases s with
  | pending w => exact ⟨rfl, rfl⟩
  | _ => exact rfl

theorem takesSlot_poll (w : Waker) (s : OneShot Value) : TakesSlot s (s.poll w) := by
  cases s with
  | pending w => exact ⟨rfl, rfl⟩
  | _ => exact rfl

theorem Standing.read {decided : Option (Option Value)} {spent : Bool} {s : OneShot Value}
    {r : Option (OneShot.Verdict Value) × OneShot Value} (h : Standing decided spent s)
    (hr : TakesSlot s r) (read : Value → CallResult α ε) (late : Answer α ε) :
    ((r.1.map (resolved read)).map Answer.result).getD late = dueAnswer read late spent decided ∧
      Standing decided (spent || r.1.isSome) r.2 := by
  cases h with
  | «open» s hs =>
    rw [TakesSlot, hs] at hr
    obtain ⟨hnone, hopen⟩ := hr
    rw [hnone]
    exact ⟨rfl, .open _ hopen⟩
  | ready v =>
    cases hr
    exact ⟨rfl, .taken v⟩
  | taken v =>
    cases hr
    exact ⟨rfl, .taken v⟩
  | abandoned b =>
    cases hr
    refine ⟨rfl, ?_⟩
    exact .abandoned _

section Reading

variable {d : Deferred α ε} {k : Ticket} {dec : Value → Decoded α ε}

def Deferred.reading (thread : Option String) (d : Deferred α ε) (dec : Value → Decoded α ε) :
    Value → CallResult α ε := fun v => Reader.resultOf ⟨d.task, thread⟩ (dec v)

theorem Deferred.readBy_takes (thread : Option String)
    {g : OneShot Value → Except Panic (Option (OneShot.Verdict Value) × OneShot Value)}
    (hd : d.state = .waiting k) (hdec : ∀ v, d.codec.decode v = .ok (dec v)) {x : Exchange}
    {r : Option (OneShot.Verdict Value) × OneShot Value} (hg : g (x.slot k) = .ok r) :
    ∃ y, Deferred.readBy thread g (d, x) =
        .returned (r.1.map (resolved (d.reading thread dec))) (d, y) ∧
      y.core = (x.setSlot k r.2).core := by
  obtain ⟨verdict, s⟩ := r
  have hread : g (x.pending.slot k) = .ok (verdict, s) := hg
  simp only [Deferred.readBy, hd, hread]
  cases verdict with
  | none => exact ⟨_, rfl, rfl⟩
  | some verdict =>
    cases verdict with
    | abandoned => exact ⟨_, rfl, rfl⟩
    | value v =>
      simp only [Deferred.finish, Reader.read, hdec]
      have hfst := Reader.lift_fst ⟨d.task, thread⟩ (dec v) (x.setSlot k s)
      refine ⟨_, ?_, Reader.core_lift ⟨d.task, thread⟩ (dec v) _⟩
      rw [Outcome.map, hfst]
      rfl

end Reading

namespace Move

variable {m : Move α ε} {n : Nat} {a late : Answer α ε}

theorem reads?_eq_some (h : m.reads? n = some late) :
    m.place? = some ⟨.deferreds, n⟩ ∧ m.late? = some late := by
  unfold reads? at h
  split at h
  · rename_i hplace
    exact ⟨hplace, h⟩
  · cases h

theorem uses_deferred (h : m.place? = some ⟨.deferreds, n⟩) :
    m.late?.isSome = true ∨ (∃ t hel, t.noDeadline = true ∧ m = .step (.waitTimeout n t) hel) ∨
      ∃ hel, m = .step (.dropDeferred n) hel := by
  unfold place? at h
  split at h
  case h_1 | h_3 | h_4 => exact .inl rfl
  case h_2 i t hel =>
    cases h
    cases ht : t.noDeadline with
    | true => exact .inr (.inl ⟨t, hel, ht, rfl⟩)
    | false =>
      rw [late?, ht]
      exact .inl rfl
  case h_5 i hel =>
    cases h
    exact .inr (.inr ⟨hel, rfl⟩)
  all_goals cases h

theorem reads?_of_place? (h : m.place? ≠ some ⟨.deferreds, n⟩) : m.reads? n = none := by
  rw [reads?, if_neg h]

theorem resolves_late (h : m.reads? n = some late) : resolves n (m, late) = false := by
  obtain ⟨-, hlate⟩ := reads?_eq_some h
  have hnot : late = .pending ∨ late = .wouldBlock := by
    unfold late? at hlate
    split at hlate
    · exact .inl (Option.some.inj hlate).symm
    · exact .inl (Option.some.inj hlate).symm
    · split at hlate
      · cases hlate
      · exact .inl (Option.some.inj hlate).symm
    · exact .inr (Option.some.inj hlate).symm
    · cases hlate
  rcases hnot with rfl | rfl <;> rfl

theorem resolves_of_reads? (h : m.reads? n = none) : resolves n (m, a) = false := by
  unfold resolves
  split
  · rename_i heq
    cases heq
    rw [h]
    rfl
  · rfl

theorem settles?_eq_none {p : PortId} (hpost : m.postTo? p = none)
    (ht : tearsDown p (m, a) = false) : settles? p (m, a) = none := by
  rw [settles?, completes?_of_postTo? hpost, ht]
  rfl

theorem settles?_of_place? {q : Place} {p : PortId} (h : m.place? = some q) :
    settles? p (m, a) = none :=
  settles?_eq_none (quiet_of_place? h a).1 (quiet_of_place? h a).2

theorem uses_running {i : Nat} (h : m.place? = some ⟨.running, i⟩) :
    ∃ ended, m = .finish i ended := by
  unfold place? at h
  split at h <;> cases h
  exact ⟨_, rfl⟩

end Move

namespace Floor

variable {f f' : Floor α ε} {m : Move α ε} {ms : List (Move α ε)} {c n : Nat} {p : PortId}
  {k : Ticket} {mine : Place} {h : Handle α ε} {decided : Option (Option Value)} {b : Bool}
  {thread : Option String}

theorem fate_cons (p : PortId) (e : Move α ε × Answer α ε) (l : List (Move α ε × Answer α ε)) :
    fate p (e :: l) = (Move.settles? p e).or (fate p l) := by
  rw [fate, List.findSome?_cons]
  cases Move.settles? p e <;> rfl

/-- The handle at `mine` is the only one that knows `p` and its ticket. -/
structure Awaits (f : Floor α ε) (mine : Place) (h : Handle α ε) (p : PortId) (k : Ticket) :
    Prop where
  keeps : f.Keeps mine h p
  tied : Exchange.Tied p k f.exchange
  apart : f.TicketApart mine k

theorem Awaits.apply (ha : f.Awaits mine h p k) (hs : f.Sound (m.opensPort.toNat + c))
    (hm : m.place? ≠ some mine) (thread : Option String) :
    (f.apply thread m).2.Awaits mine h p k := by
  obtain ⟨ops, he⟩ := hs.effect thread m
  exact ⟨ha.keeps.apply hs hm thread, tied_apply thread hs ha.tied,
    ha.apart.effect he ha.tied.lt hm⟩

theorem Awaits.spared_run (thread : Option String) (ha : f.Awaits mine h p k)
    (hs : f.Sound (ms.countP Move.opensPort + c))
    (hms : ∀ m ∈ ms, m.place? ≠ some mine) (hst : Standing decided b (f.exchange.slot k)) :
    (run thread ms f).Awaits mine h p k ∧
      Standing (decided.or (fate p (history thread ms f))) b ((run thread ms f).exchange.slot k) := by
  induction ms generalizing f decided with
  | nil =>
    refine ⟨ha, ?_⟩
    change Standing (decided.or none) b _
    rw [Option.or_none]
    exact hst
  | cons m ms ih =>
    rw [countP_opens_cons] at hs
    have hm := hms m List.mem_cons_self
    have hnext := hst.slotStep (slotStep_apply hs ha.keeps ha.tied ha.apart hm thread)
    have htail := ih (ha.apply hs hm thread) (hs.apply thread)
      (fun m' hm' => hms m' (List.mem_cons_of_mem m hm')) hnext
    rw [history, fate_cons, ← Option.or_assoc]
    exact htail

theorem apply_completes {v : Value} (hx : f.exchange.Consistent)
    (h : Move.completes? p (m, (f.apply thread m).1) = some v) :
    (f.exchange.ticket? p).isSome = true ∧ (f.apply thread m).2.exchange.ticket? p = none := by
  have hpost := Move.postTo?_eq_some (Move.completes?_eq_some h)
  have hanswer : (f.apply thread m).1 = .reply (.delivery .completed) := by
    unfold Move.completes? at h
    split at h
    · rename_i heq
      exact (Prod.mk.inj heq).2
    · cases h
  have hlive : f.exchange.isGone = false := by
    cases hgone : f.exchange.isGone with
    | false => rfl
    | true =>
      rcases apply_post_gone thread hpost hgone with ha | ha <;> rw [ha] at hanswer <;> cases hanswer
  have happly := apply_post thread hpost hlive
  have hcompleted : (f.exchange.post p v).1 = .completed := by
    rw [happly] at hanswer
    injection hanswer with hreply
    injection hreply
  have heff := (f.exchange.post_posted p v).effective hx
  rw [hcompleted] at heff
  obtain ⟨k, hk, hwaiting, -⟩ := heff
  rw [happly, hk]
  refine ⟨rfl, ?_⟩
  change (f.exchange.post p v).2.pending.waiting.lookup p = none
  rw [hwaiting, Lookup.lookup_without, if_pos rfl]

theorem issued_apply (hs : f.Sound (m.opensPort.toNat + c)) (hp : f.exchange.Issued p)
    (thread : Option String) : (f.apply thread m).2.exchange.Issued p := by
  obtain ⟨ops, he⟩ := hs.effect thread m
  exact (he.runs.grows hs.consistent (he.fit hs)).issued p hp

theorem retired_apply (hs : f.Sound (m.opensPort.toNat + c)) (hp : f.exchange.Issued p)
    (ht : f.exchange.ticket? p = none) (thread : Option String) :
    (f.apply thread m).2.exchange.ticket? p = none := by
  obtain ⟨ops, he⟩ := hs.effect thread m
  cases hj : (f.apply thread m).2.exchange.ticket? p with
  | none => rfl
  | some j =>
    rcases (he.runs.grows hs.consistent (he.fit hs)).ticket p j hj with hold | ⟨hnew, -⟩
    · rw [ht] at hold
      cases hold
    · exact absurd hp hnew

theorem completes_retired (thread : Option String) (hs : f.Sound (ms.countP Move.opensPort + c))
    (hp : f.exchange.Issued p) (ht : f.exchange.ticket? p = none) :
    (history thread ms f).countP (fun e => (Move.completes? p e).isSome) = 0 := by
  induction ms generalizing f with
  | nil => rfl
  | cons m ms ih =>
    rw [countP_opens_cons] at hs
    have hp' := issued_apply hs hp thread
    have ht' := retired_apply hs hp ht thread
    have hnone : Move.completes? p (m, (f.apply thread m).1) = none := by
      cases hv : Move.completes? p (m, (f.apply thread m).1) with
      | none => rfl
      | some v =>
        have hpending := (apply_completes hs.consistent hv).1
        rw [ht] at hpending
        cases hpending
    rw [history, List.countP_cons, ih (hs.apply thread) hp' ht', hnone]
    rfl

theorem completes_le_one (thread : Option String) (hs : f.Sound (ms.countP Move.opensPort + c)) :
    (history thread ms f).countP (fun e => (Move.completes? p e).isSome) ≤ 1 := by
  induction ms generalizing f with
  | nil => exact Nat.zero_le 1
  | cons m ms ih =>
    rw [countP_opens_cons] at hs
    rw [history, List.countP_cons]
    cases hv : Move.completes? p (m, (f.apply thread m).1) with
    | none => exact ih (hs.apply thread)
    | some v =>
      obtain ⟨hpending, hretired⟩ := apply_completes hs.consistent hv
      have hissued := issued_apply hs (hs.consistent.pending_issued p hpending) thread
      rw [completes_retired thread (hs.apply thread) hissued hretired]
      exact Nat.le_refl 1

theorem retired_of_settles {r : Option Value} (hx : f.exchange.Consistent)
    (hp : p ≠ Exchange.reversePort) (h : Move.settles? p (m, (f.apply thread m).1) = some r) :
    (f.apply thread m).2.exchange.ticket? p = none := by
  unfold Move.settles? at h
  split at h
  · rename_i v hv
    exact (apply_completes hx hv).2
  · split at h
    · rename_i htear
      rw [Move.tearsDown, Bool.or_eq_true] at htear
      rcases htear with hshut | hclose
      · exact (apply_shutsDown hx hshut).ticket p
      · rw [apply_closes hclose, (Exchange.retired_closePort hx hp).ticket, if_pos rfl]
    · cases h

theorem fate_of_completes {e : Move α ε × Answer α ε} {v : Value}
    (hs : f.Sound (ms.countP Move.opensPort + c)) (hp : f.exchange.Issued p)
    (hne : p ≠ Exchange.reversePort) (he : e ∈ history thread ms f)
    (hv : Move.completes? p e = some v) : fate p (history thread ms f) = some (some v) := by
  induction ms generalizing f with
  | nil => cases he
  | cons m ms ih =>
    rw [countP_opens_cons] at hs
    have hissued := issued_apply hs hp thread
    rw [history, fate_cons]
    rcases List.mem_cons.1 he with rfl | he
    · rw [Move.settles?, hv]
      rfl
    · cases hset : Move.settles? p (m, (f.apply thread m).1) with
      | none => exact ih (hs.apply thread) hissued he
      | some r =>
        have hretired := retired_of_settles hs.consistent hne hset
        have hzero := completes_retired thread (hs.apply thread) hissued hretired
        rw [List.countP_eq_zero] at hzero
        refine absurd ?_ (hzero e he)
        rw [hv]
        rfl

section Reads

variable {d : Deferred α ε} {dec : Value → Decoded α ε} {late : Answer α ε}

theorem readDeferred_waiting (thread : Option String) (late : Answer α ε)
    {g : OneShot Value → Except Panic (Option (OneShot.Verdict Value) × OneShot Value)}
    {r : Option (OneShot.Verdict Value) × OneShot Value} (hq : f.session.deferreds[n]?.join = some d)
    (hd : d.state = .waiting k) (hdec : ∀ v, d.codec.decode v = .ok (dec v))
    (hk : k < f.exchange.pending.slots.length) (hg : g (f.exchange.slot k) = .ok r) :
    let t := f.turn (f.session.readDeferred n late (Deferred.readBy thread g))
    t.1 = ((r.1.map (resolved (d.reading thread dec))).map Answer.result).getD late ∧
      Swap ⟨.deferreds, n⟩ (some (.deferred d)) f t.2 ∧ t.2.exchange.slot k = r.2 := by
  obtain ⟨y, hread, hcore⟩ := Deferred.readBy_takes thread hd hdec hg
  have hturn : f.session.readDeferred n late (Deferred.readBy thread g) =
      (((r.1.map (resolved (d.reading thread dec))).map Answer.result).getD late,
        (f.session.put y).setDeferred n (some d)) := by
    rw [Session.readDeferred, Session.withHandle, hq, session_exchange]
    dsimp only
    rw [hread]
  rw [hturn]
  refine ⟨rfl, swap_deferred hq (some d) (f.session.put y).stage, ?_⟩
  change y.pending.slot k = _
  rw [Exchange.pending_congr hcore]
  change (f.exchange.pending.setSlot k r.2).slot k = _
  rw [Pending.slot_setSlot _ _ _ _ hk, if_pos rfl]

theorem waitDeferred_settled (thread : Option String) (hq : f.session.deferreds[n]?.join = some d)
    (hd : d.state = .waiting k) (hdec : ∀ v, d.codec.decode v = .ok (dec v))
    (hset : (f.exchange.slot k).isSettled = true) :
    (f.session.waitDeferred thread n).1 =
      (((f.exchange.slot k).take.1.map (resolved (d.reading thread dec))).map Answer.result).getD
        .wouldBlock := by
  have hready : d.isReady f.session.exchange = true := by
    rw [Deferred.isReady, hd]
    exact hset
  obtain ⟨y, hread, -⟩ := Deferred.readBy_takes thread (g := fun s => .ok s.take) hd hdec
    (x := f.exchange) rfl
  rw [Session.waitDeferred, Session.withHandle, hq]
  dsimp only
  rw [if_pos hready, Deferred.wait, Deferred.tryTake, session_exchange, hread]
  rfl

theorem waitDeferred_open (thread : Option String) (hq : f.session.deferreds[n]?.join = some d)
    (hd : d.state = .waiting k) (hopen : (f.exchange.slot k).isSettled = false) :
    f.session.waitDeferred thread n = (.wouldBlock, f.session) := by
  have hready : d.isReady f.session.exchange = false := by
    rw [Deferred.isReady, hd]
    exact hopen
  rw [Session.waitDeferred, Session.withHandle, hq]
  dsimp only
  rw [hready]
  rfl

theorem Awaits.read_wait (ha : f.Awaits ⟨.deferreds, n⟩ (.deferred d) p k)
    (hd : d.state = .waiting k)
    (hdec : ∀ v, d.codec.decode v = .ok (dec v))
    (hel : (Step.wait n : Step α ε).isElementary = true) (thread : Option String) :
    let m : Move α ε := .step (.wait n) hel
    ∃ r, TakesSlot (f.exchange.slot k) r ∧
      (f.apply thread m).1 =
        ((r.1.map (resolved (d.reading thread dec))).map Answer.result).getD .wouldBlock ∧
      (Move.givesUp n (m, (f.apply thread m).1) = false →
        Swap ⟨.deferreds, n⟩ (some (.deferred d)) f (f.apply thread m).2 ∧
          (f.apply thread m).2.exchange.slot k = r.2) := by
  intro m
  have hq := deferred_of_handle? ha.keeps.handle
  cases hset : (f.exchange.slot k).isSettled with
  | true =>
    have hanswer := waitDeferred_settled thread hq hd hdec hset
    refine ⟨_, takesSlot_take _, hanswer, fun hgives => ?_⟩
    -- what is settled is found, and the handle is gone
    have hsome := OneShot.take_fst_isSome (f.exchange.slot k)
    rw [hset] at hsome
    obtain ⟨v, hv⟩ := Option.isSome_iff_exists.1 hsome
    rw [hv] at hanswer
    change (f.session.waitDeferred thread n).1 = .result _ at hanswer
    change Move.givesUp n (_, (f.session.waitDeferred thread n).1) = false at hgives
    rw [hanswer, Move.givesUp] at hgives
    simp [m, Move.place?, Move.isLast] at hgives
  | false =>
    have hturn := waitDeferred_open thread hq hd hset
    refine ⟨(none, f.exchange.slot k), ?_, congrArg Prod.fst hturn, fun _ => ?_⟩
    · rw [TakesSlot, hset]
      exact ⟨rfl, rfl⟩
    · change Swap _ _ f { f with session := (f.session.waitDeferred thread n).2 } ∧ _
      change _ ∧ (f.session.waitDeferred thread n).2.exchange.slot k = _
      rw [hturn]
      exact ⟨.refl ha.keeps.handle f.session.stage, rfl⟩

/-- A read takes what is in the slot. If it keeps the handle, the handle is what it was. -/
theorem Awaits.read (ha : f.Awaits ⟨.deferreds, n⟩ (.deferred d) p k) (hd : d.state = .waiting k)
    (hdec : ∀ v, d.codec.decode v = .ok (dec v)) (hread : m.reads? n = some late)
    (thread : Option String) :
    ∃ r, TakesSlot (f.exchange.slot k) r ∧
      (f.apply thread m).1 =
        ((r.1.map (resolved (d.reading thread dec))).map Answer.result).getD late ∧
      (Move.givesUp n (m, (f.apply thread m).1) = false →
        Swap ⟨.deferreds, n⟩ (some (.deferred d)) f (f.apply thread m).2 ∧
          (f.apply thread m).2.exchange.slot k = r.2) := by
  have hq := deferred_of_handle? ha.keeps.handle
  have hk := ha.tied.lt
  obtain ⟨hplace, hlate⟩ := Move.reads?_eq_some hread
  unfold Move.late? at hlate
  split at hlate
  · cases hplace
    cases hlate
    have hturn := readDeferred_waiting thread .pending hq hd hdec hk (g := fun s => .ok s.take) rfl
    exact ⟨_, takesSlot_take _, hturn.1, fun _ => hturn.2⟩
  · rename_i i w hel
    cases hplace
    cases hlate
    have hturn := readDeferred_waiting thread .pending hq hd hdec hk
      (g := fun s => .ok (s.poll w)) rfl
    exact ⟨_, takesSlot_poll w _, hturn.1, fun _ => hturn.2⟩
  · rename_i i t hel
    cases hplace
    split at hlate
    · cases hlate
    · rename_i hdeadline
      cases hlate
      have htake : (f.exchange.slot k).takeWithin t = .ok (f.exchange.slot k).take := by
        rw [OneShot.takeWithin, if_neg hdeadline]
      have hturn := readDeferred_waiting thread .pending hq hd hdec hk
        (g := fun s => s.takeWithin t) htake
      exact ⟨_, takesSlot_take _, hturn.1, fun _ => hturn.2⟩
  · rename_i i hel
    cases hplace
    cases hlate
    exact ha.read_wait hd hdec hel thread
  · cases hlate

theorem readDeferred_noDeadline (thread : Option String) (late : Answer α ε) {t : Timeout}
    (hq : f.session.deferreds[n]?.join = some d) (hd : d.state = .waiting k)
    (ht : t.noDeadline = true) :
    f.session.readDeferred n late (Deferred.waitTimeout thread t) =
      (.unwound .noDeadline, (f.session.put f.exchange).setDeferred n (some d)) := by
  have hread : Deferred.waitTimeout thread t (d, f.exchange) = .unwound .noDeadline (d, f.exchange) :=
    Deferred.readBy_aborts thread hd (if_pos ht)
  rw [Session.readDeferred, Session.withHandle, hq, session_exchange]
  dsimp only
  rw [hread]

theorem Awaits.used (ha : f.Awaits ⟨.deferreds, n⟩ (.deferred d) p k) (hd : d.state = .waiting k)
    (hdec : ∀ v, d.codec.decode v = .ok (dec v)) (hs : f.Sound (m.opensPort.toNat + c))
    (hm : m.place? = some ⟨.deferreds, n⟩) (thread : Option String)
    (hgives : Move.givesUp n (m, (f.apply thread m).1) = false)
    (hst : Standing decided b (f.exchange.slot k)) :
    (f.apply thread m).2.Awaits ⟨.deferreds, n⟩ (.deferred d) p k ∧
      Standing decided (b || Move.resolves n (m, (f.apply thread m).1))
        ((f.apply thread m).2.exchange.slot k) := by
  have hawaits : Swap ⟨.deferreds, n⟩ (some (.deferred d)) f (f.apply thread m).2 →
      (f.apply thread m).2.Awaits ⟨.deferreds, n⟩ (.deferred d) p k := fun hswap =>
    ⟨ha.keeps.swap hswap ha.keeps.port ha.keeps.held, tied_apply thread hs ha.tied,
      ha.apart.swap hswap⟩
  cases hread : m.reads? n with
  | some late =>
    obtain ⟨r, htakes, hanswer, hkept⟩ := ha.read hd hdec hread thread
    obtain ⟨hswap, hslot⟩ := hkept hgives
    have hnext := (hst.read htakes (d.reading thread dec) late).2
    have hfound : Move.resolves n (m, (f.apply thread m).1) = r.1.isSome := by
      rw [hanswer]
      cases hr : r.1 with
      | none => exact Move.resolves_late hread
      | some v =>
        change (m.reads? n).isSome = true
        rw [hread]
        rfl
    rw [hslot, hfound]
    exact ⟨hawaits hswap, hnext⟩
  | none =>
    have hlate : m.late? = none := by
      rw [Move.reads?, if_pos hm] at hread
      exact hread
    rw [Move.resolves_of_reads? hread, Bool.or_false]
    have hq := deferred_of_handle? ha.keeps.handle
    rcases Move.uses_deferred hm with hsome | ⟨t, hel, ht, rfl⟩ | ⟨hel, rfl⟩
    · rw [hlate] at hsome
      cases hsome
    · have hturn : f.apply thread (.step (.waitTimeout n t) hel) =
          f.turn (.unwound .noDeadline, (f.session.put f.exchange).setDeferred n (some d)) :=
        congrArg f.turn (readDeferred_noDeadline thread .pending hq hd ht)
      rw [hturn] at hawaits ⊢
      exact ⟨hawaits (swap_deferred hq (some d) _), hst⟩
    · rw [Move.givesUp] at hgives
      simp [Move.place?, Move.isLast] at hgives

theorem Awaits.resolves_run (ha : f.Awaits ⟨.deferreds, n⟩ (.deferred d) p k)
    (hd : d.state = .waiting k) (hdec : ∀ v, d.codec.decode v = .ok (dec v))
    (hs : f.Sound (ms.countP Move.opensPort + c))
    (hkept : ∀ e ∈ history thread ms f, Move.givesUp n e = false)
    (hst : Standing decided b (f.exchange.slot k)) :
    (run thread ms f).Awaits ⟨.deferreds, n⟩ (.deferred d) p k ∧
      Standing (decided.or (fate p (history thread ms f))) (b || spent n (history thread ms f))
        ((run thread ms f).exchange.slot k) := by
  induction ms generalizing f decided b with
  | nil =>
    refine ⟨ha, ?_⟩
    change Standing (decided.or none) (b || false) _
    rw [Option.or_none, Bool.or_false]
    exact hst
  | cons m ms ih =>
    rw [countP_opens_cons] at hs
    have hhead := hkept _ List.mem_cons_self
    have htail := fun e he => hkept e (List.mem_cons_of_mem _ he)
    rw [history, fate_cons, ← Option.or_assoc, spent, List.any_cons, ← Bool.or_assoc]
    -- only a read can spend the result, and only what others do can decide the call
    by_cases hm : m.place? = some ⟨.deferreds, n⟩
    · obtain ⟨hawaits, hnext⟩ := ha.used hd hdec hs hm thread hhead hst
      rw [Move.settles?_of_place? hm, Option.or_none]
      exact ih hawaits (hs.apply thread) htail hnext
    · have hnext := hst.slotStep (slotStep_apply hs ha.keeps ha.tied ha.apart hm thread)
      rw [Move.resolves_of_reads? (Move.reads?_of_place? hm), Bool.or_false]
      exact ih (ha.apply hs hm thread) (hs.apply thread) htail hnext

end Reads

section Call

variable {task : String} {codec : Codec α ε} {x : Exchange}

theorem awaits_beginAsync (hs : f.Sound (1 + c))
    (h : f.opened? (.beginAsync task codec) = some (p, k)) (thread : Option String) :
    let f' := (f.apply thread (.beginAsync task codec)).2
    f'.Awaits ⟨.running, f.running.length⟩ (.running (.async task codec p k)) p k ∧
      Standing none false (f'.exchange.slot k) := by
  obtain ⟨-, hd, ho, -⟩ := opened?_eq_some thread h
  obtain ⟨x, hcore, hf'⟩ := apply_beginAsync thread task codec hd ho
  obtain ⟨hp, hk, -, r, hreg, -, hx⟩ := Exchange.openSingle_ok ho
  have htied := tied_opened thread (m := .beginAsync task codec) hs h
  have hswap := append_running f (.async task codec p k) (f.session.stage.put x)
  rw [table, List.length_map] at hswap
  dsimp only
  rw [hf'] at htied ⊢
  refine ⟨⟨.opened hs hswap hp rfl (.inr rfl), htied, .opened hs hswap hk⟩, ?_⟩
  refine .open _ ?_
  change (x.pending.slot k).isSettled = false
  rw [Exchange.pending_congr hcore, hx]
  change (r.slot k).isSettled = false
  rw [Pending.slot_register hreg, if_pos rfl]
  rfl

theorem awaits_finish {i : Nat} (thread : Option String) (buffer : Buffer)
    (ha : f.Awaits ⟨.running, i⟩ (.running (.async task codec p k)) p k)
    (hs : f.Sound ((Move.finish i (.ok buffer) : Move α ε).opensPort.toNat + c))
    (hst : Standing decided b (f.exchange.slot k)) :
    let d : Deferred α ε := ⟨.waiting k, codec, task, p⟩
    let t := f.apply thread (.finish i (.ok buffer))
    (∃ ready text, t.1 = .deferred f.session.deferreds.length d ready text) ∧
      t.2.Awaits ⟨.deferreds, f.session.deferreds.length⟩ (.deferred d) p k ∧
        Standing decided b (t.2.exchange.slot k) := by
  intro d t
  have hr := code_of_handle? ha.keeps.handle
  have hturn : t = f.finish thread i (.ok buffer) := rfl
  rw [Floor.finish, hr] at hturn
  have hswap := swap_running hr (f.session.stage.put f.exchange.hold)
  have happend := append_deferred { f.onStage (f.session.stage.put f.exchange.hold) with
    running := f.running.set i none } d (f.session.stage.put f.exchange.hold)
  rw [table, List.length_map] at happend
  have htied := tied_apply thread hs ha.tied
  change Exchange.Tied p k t.2.exchange at htied
  rw [hturn] at htied ⊢
  refine ⟨⟨_, _, rfl⟩, ⟨?_, htied, ?_⟩, hst⟩
  · exact ha.keeps.passed hswap happend rfl (.inl (Nat.le_refl 1))
  · exact ha.apart.passed hswap happend

end Call

theorem fate_append (p : PortId) (l l' : List (Move α ε × Answer α ε)) :
    fate p (l ++ l') = (fate p l).or (fate p l') := List.findSome?_append

theorem awaits_call {task : String} {codec : Codec α ε} {buffer : Buffer} {during : List (Move α ε)}
    (thread : Option String)
    (hs : f.Sound (List.countP Move.opensPort (Move.beginAsync task codec :: during ++
      [Move.finish f.running.length (.ok buffer)]) + c))
    (hopen : f.opened? (.beginAsync task codec) = some (p, k))
    (hentry : ∀ ended, .finish f.running.length ended ∉ during) :
    let d : Deferred α ε := ⟨.waiting k, codec, task, p⟩
    let returns : Move α ε := .finish f.running.length (.ok buffer)
    let g := run thread (.beginAsync task codec :: during) f
    let t := g.apply thread returns
    (∃ ready text, t.1 = .deferred g.session.deferreds.length d ready text) ∧
      t.2.Awaits ⟨.deferreds, g.session.deferreds.length⟩ (.deferred d) p k ∧
        Standing (fate p (history thread (.beginAsync task codec :: during ++ [returns]) f)) false
          (t.2.exchange.slot k) := by
  intro d returns g t
  rw [countP_opens_append] at hs
  have hsound : g.Sound (returns.opensPort.toNat + c) := hs.run thread
  rw [countP_opens_cons] at hs
  obtain ⟨hbegun, hfirst⟩ := awaits_beginAsync hs hopen thread
  obtain ⟨hwaiting, hstanding⟩ := hbegun.spared_run thread (hs.apply thread)
    (fun m hm hplace => by
      obtain ⟨ended, rfl⟩ := Move.uses_running hplace
      exact hentry ended hm) hfirst
  obtain ⟨hanswer, hawaits, hslot⟩ := awaits_finish thread buffer hwaiting hsound hstanding
  refine ⟨hanswer, hawaits, ?_⟩
  rw [history_append, fate_append, history, fate_cons, history, fate_cons,
    Move.settles?_eq_none rfl rfl, Move.settles?_of_place? rfl]
  change Standing ((none.or (fate p _)).or (none.or none)) false _
  rw [Option.or_none, Option.or_none]
  exact hslot

theorem fate_of_call {task : String} {codec : Codec α ε} {e : Move α ε × Answer α ε} {v : Value}
    (hs : f.Sound ((Move.beginAsync task codec :: ms).countP Move.opensPort + c))
    (hopen : f.opened? (.beginAsync task codec) = some (p, k))
    (he : e ∈ history thread (.beginAsync task codec :: ms) f)
    (hv : Move.completes? p e = some v) :
    fate p (history thread (.beginAsync task codec :: ms) f) = some (some v) := by
  rw [countP_opens_cons] at hs
  obtain ⟨hbegun, -⟩ := awaits_beginAsync hs hopen thread
  obtain ⟨hissued, hne⟩ := (hs.apply thread).ports _ _ p hbegun.keeps.handle hbegun.keeps.port
  rw [history, fate_cons, Move.settles?_eq_none rfl rfl]
  rcases List.mem_cons.1 he with rfl | he
  · rw [Move.completes?_of_postTo? rfl] at hv
    cases hv
  · exact fate_of_completes (hs.apply thread) hissued hne he hv

theorem sound_call {s : Settings} {x : Exchange} (hx : Exchange.create s = .ok x)
    {before during after : List (Move α ε)} (begins : Move α ε) {returns : Move α ε}
    (hreturns : returns.opensPort = false)
    (hfew : (before ++ during ++ after).countP Move.opensPort + 2 < PortId.supply) :
    (start x : Floor α ε).Sound
      ((before ++ ((begins :: during ++ [returns]) ++ after)).countP Move.opensPort + 0) := by
  refine sound_start hx ?_
  have hbegins := Bool.toNat_le begins.opensPort
  rw [List.countP_append, List.countP_append] at hfew
  rw [List.countP_append, List.countP_append, List.countP_append, List.countP_singleton, hreturns,
    if_neg Bool.false_ne_true, ← Nat.add_zero (List.countP _ (begins :: during)), countP_opens_cons]
  omega

/-- An async call whose entry returns, in any run that does not use up the numbers for ports: at
most one delivery to its port completes; one that does decides the call; and every read of its
result answers by what decided the call first and by whether an earlier read found it. -/
theorem run_resolves {s : Settings} {x : Exchange} (hx : Exchange.create s = .ok x)
    (thread : Option String) (before during after : List (Move α ε)) (task : String)
    (codec : Codec α ε) (buffer : Buffer) {dec : Value → Decoded α ε}
    (hdec : ∀ v, codec.decode v = .ok (dec v))
    (hopen : (run thread before (start x)).opened? (.beginAsync task codec) = some (p, k))
    (hentry : ∀ ended, .finish (run thread before (start x)).running.length ended ∉ during)
    (hfew : (before ++ during ++ after).countP Move.opensPort + 2 < PortId.supply) :
    let f := run thread before (start x)
    let returns : Move α ε := .finish f.running.length (.ok buffer)
    let call := .beginAsync task codec :: during ++ [returns]
    let g := run thread (.beginAsync task codec :: during) f
    let n := g.session.deferreds.length
    let t := g.apply thread returns
    (∃ ready text, t.1 = .deferred n ⟨.waiting k, codec, task, p⟩ ready text) ∧
    (history thread (before ++ (call ++ after)) (start x)).countP
      (fun e => (Move.completes? p e).isSome) ≤ 1 ∧
    ∀ past future, after = past ++ future →
      let h := history thread (call ++ past) f
      (∀ e ∈ h, ∀ v, Move.completes? p e = some v → fate p h = some (some v)) ∧
      ((∀ e ∈ history thread past t.2, Move.givesUp n e = false) →
        ∀ m late, m.reads? n = some late → ((run thread past t.2).apply thread m).1 =
          dueAnswer (fun v => Reader.resultOf ⟨task, thread⟩ (dec v)) late
            (spent n (history thread past t.2)) (fate p h)) := by
  intro f returns call g n t
  have hs : (start x : Floor α ε).Sound ((before ++ (call ++ after)).countP Move.opensPort + 0) :=
    sound_call hx _ rfl hfew
  have hle := completes_le_one (p := p) thread hs
  rw [countP_opens_append] at hs
  have hbefore := hs.run thread
  rw [countP_opens_append] at hbefore
  obtain ⟨hanswer, hawaits, hstanding⟩ := awaits_call thread hbefore hopen hentry
  refine ⟨hanswer, hle, ?_⟩
  intro past future hafter h
  have hdone : run thread call f = t.2 := run_append thread _ [returns] f
  have hsound := hbefore.run thread
  rw [hafter, countP_opens_append, hdone] at hsound
  refine ⟨?_, ?_⟩
  · intro e he v hv
    have hsplit : call.countP Move.opensPort + (after.countP Move.opensPort + 0) =
        (call ++ past).countP Move.opensPort + (future.countP Move.opensPort + 0) := by
      rw [hafter, countP_opens_append past, countP_opens_append call]
    exact fate_of_call (hsplit ▸ hbefore) hopen he hv
  · intro hkept m late hread
    have hfate : fate p h = (fate p (history thread call f)).or (fate p (history thread past t.2)) := by
      change fate p (history thread (call ++ past) f) = _
      rw [history_append, fate_append, hdone]
    obtain ⟨hlater, hstands⟩ := hawaits.resolves_run rfl hdec hsound hkept hstanding
    obtain ⟨r, htakes, hfound, -⟩ := hlater.read rfl hdec hread thread
    rw [hfound, (hstands.read htakes _ late).1, Bool.false_or, hfate]
    rfl

/-- A delivery before the entry returns, a shutdown, and a read that finds the delivery. -/
theorem run_resolves_after_shutdown : ∃ x, Exchange.create .standard = .ok x ∧
    let codec : Codec Value Unit :=
      ⟨fun v => .ok (.success v), fun _ => false, fun _ => .ok (.malformed "")⟩
    let during : List (Move Value Unit) := [.deliver ⟨1⟩ (.bool true)]
    let after : List (Move Value Unit) := [.step (.act .shutdown) rfl, .step (.tryTake 0) rfl]
    let f := run none [] (start x)
    let t := (run none (.beginAsync "task" codec :: during) f).apply none
      (.finish f.running.length (.ok ⟨[]⟩))
    (∀ v, codec.decode v = .ok (.success v)) ∧
      f.opened? (.beginAsync "task" codec) = some (⟨1⟩, 0) ∧
      (∀ ended, .finish f.running.length ended ∉ during) ∧
      ([] ++ during ++ after).countP Move.opensPort + 2 < PortId.supply ∧
      (∃ ready text, t.1 = .deferred 0 ⟨.waiting 0, codec, "task", ⟨1⟩⟩ ready text) ∧
      ((run none [.step (.act .shutdown) rfl] t.2).apply none (.step (.tryTake 0) rfl)).1 =
        .result (.ok (.bool true)) := by
  obtain ⟨x, hx⟩ : ∃ x, Exchange.create .standard = .ok x := ⟨_, rfl⟩
  refine ⟨x, hx, ?_⟩
  intro codec during after f t
  have hdec : ∀ v, codec.decode v = .ok (.success v) := fun _ => rfl
  have hopen : f.opened? (.beginAsync "task" codec) = some (⟨1⟩, 0) := by
    cases hx
    rfl
  have hentry : ∀ ended, .finish f.running.length ended ∉ during := by
    simp [during]
  have hfew : ([] ++ during ++ after).countP Move.opensPort + 2 < PortId.supply := by decide
  obtain ⟨hanswer, -, hreads⟩ := run_resolves hx none [] during after "task" codec ⟨[]⟩ hdec hopen
    hentry hfew
  obtain ⟨-, hread⟩ := hreads [.step (.act .shutdown) rfl] [.step (.tryTake 0) rfl] rfl
  refine ⟨hdec, hopen, hentry, hfew, ?_, ?_⟩
  · cases hx
    exact hanswer
  · have hfound := hread (by simp [history, Move.givesUp, Move.place?]) (.step (.tryTake 0) rfl) .pending
    cases hx
    exact hfound rfl

end Floor

end CallExchange
