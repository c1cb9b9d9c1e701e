import CallExchange.Proofs.Exchange.Changes
import CallExchange.Proofs.Representation

set_option autoImplicit false

/-!
# What is given out

An opening move gives out the next number, with the next ticket or with a new inbox, or nothing. No
other move gives out anything. So numbers and tickets increase along every run, and none is given
out twice.
-/

namespace CallExchange

open Exchange (Op Runs Fit)

variable {α ε : Type}

namespace Move

/-- The number that a move answered with for the port that it opened. -/
def given? : Move α ε × Answer α ε → Option PortId
  | (.beginAsync _ _, .reply (.port p _)) | (.beginStream _ _, .reply (.port p _)) => some p
  | (.step .openSingle _, .single _ p _) => some p
  | (.step (.openBroadcast _) _, .broadcast _ b _) => some b.id
  | _ => none

theorem given?_of_opensPort {m : Move α ε} (hm : m.opensPort = false) (a : Answer α ε) :
    given? (m, a) = none := by
  unfold given?
  split
  case h_5 => rfl
  all_goals
    rename_i he
    cases he
    cases hm

end Move

def given (h : List (Move α ε × Answer α ε)) : List PortId := h.filterMap Move.given?

namespace Exchange

variable {x y : Exchange} {p : PortId} {k : Ticket} {ops : List Op}

theorem OpenedSingle.ticket {a : Except Fault (PortId × Ticket)} (ho : OpenedSingle x a y)
    (hk : y.ticket? p = some k) : x.ticket? p = some k ∨ a = .ok (p, k) := by
  cases ho with
  | closed hx => exact .inl hk
  | refused f hx hr => exact .inl hk
  | opened j r hx hr =>
    rw [ticket?, Pending.ticket?_register hr] at hk
    split at hk
    · rename_i hp
      cases hk
      exact .inr (by rw [hp])
    · exact .inl hk

theorem OpenedSingle.inbox_eq {a : Except Fault (PortId × Ticket)} (ho : OpenedSingle x a y) :
    y.inbox p = x.inbox p := by
  cases ho <;> rfl

theorem OpenedBroadcast.pending_eq {task : String} {a : Except Fault Broadcast}
    (ho : OpenedBroadcast x task a y) : y.pending = x.pending := by
  cases ho with
  | closed hx => rfl
  | opened name y hx hn hy => exact congrArg Core.pending hy

theorem OpenedBroadcast.inbox_open (h : x.Consistent) {task : String} {a : Except Fault Broadcast}
    (ho : OpenedBroadcast x task a y) (hb : (y.inbox p).closed = false) :
    (x.inbox p).closed = false ∨ a.toOption.map Broadcast.id = some p := by
  cases ho with
  | closed hx => exact .inl hb
  | opened name y hx hn hy =>
    rw [inbox_opened h (congrArg Core.inboxes hy)] at hb
    split at hb
    · rename_i hp
      exact .inr (congrArg some hp.symm)
    · exact .inl hb

namespace Runs

theorem issued_old (hr : Runs ops x y) (h : x.Consistent) (hf : Fit ops x)
    (ho : ops.countP Op.opens = 0) (hp : y.Issued p) : x.Issued p := by
  have hle := hr.nextPort_le h hf
  rw [ho] at hle
  exact ⟨hp.1, Int.lt_of_lt_of_le hp.2 (by omega)⟩

theorem ticket_old (hr : Runs ops x y) (h : x.Consistent) (hf : Fit ops x)
    (ho : ops.countP Op.opens = 0) (hk : y.ticket? p = some k) : x.ticket? p = some k := by
  have hissued := (hr.consistent h hf).pending_issued p (by rw [hk]; rfl)
  rcases (hr.grows h hf).ticket p k hk with hold | ⟨hnew, -⟩
  · exact hold
  · exact absurd (hr.issued_old h hf ho hissued) hnew

theorem inbox_open_old (hr : Runs ops x y) (h : x.Consistent) (hf : Fit ops x)
    (ho : ops.countP Op.opens = 0) (hb : (y.inbox p).closed = false) :
    (x.inbox p).closed = false := by
  have hy := hr.consistent h hf
  have hissued := hr.issued_old h hf ho (hy.inbox_issued p (y.hasInbox_of_open p hb))
  cases hx : (x.inbox p).closed with
  | false => rfl
  | true =>
    rw [hr.inbox_stays_closed h hf hissued hx] at hb
    cases hb

end Runs

end Exchange

namespace Floor

variable {f : Floor α ε} {m : Move α ε} {ms : List (Move α ε)} {t : Turn α ε} {n : Nat}
  {p : PortId} {k : Ticket} {v : Value} {thread : Option String}

/-- A move gives out at most one number, which is the next one, and with it the only ticket or the
only inbox that is new. -/
structure Gives (f : Floor α ε) (m : Move α ε) (t : Turn α ε) : Prop where
  ticket : ∀ p k, t.2.exchange.ticket? p = some k →
    f.exchange.ticket? p = some k ∨ f.opened? m = some (p, k)
  inbox : ∀ p, (t.2.exchange.inbox p).closed = false →
    (f.exchange.inbox p).closed = false ∨ Move.given? (m, t.1) = some p
  slots : f.opened? m = none →
    t.2.exchange.pending.slots.length = f.exchange.pending.slots.length
  opened : ∀ p k, f.opened? m = some (p, k) → Move.given? (m, t.1) = some p
  next : ∀ p, Move.given? (m, t.1) = some p →
    p = f.exchange.nextPort ∧ t.2.exchange.nextPort = p.next

theorem ok_of_toOption {β : Type} {r : Except Fault β} {b : β} (h : r.toOption = some b) :
    r = .ok b := by
  cases r with
  | error e => cases h
  | ok b =>
    cases h
    rfl

namespace Gives

theorem of_nothing (ht : t.2 = f) (ho : f.opened? m = none) (hg : Move.given? (m, t.1) = none) :
    Gives f m t where
  ticket p k hk := .inl (ht ▸ hk)
  inbox p hb := .inl (ht ▸ hb)
  slots _ := by rw [ht]
  opened p k h := by
    rw [ho] at h
    cases h
  next p h := by
    rw [hg] at h
    cases h

theorem of_single (ho : f.opened? m = f.exchange.openSingle.1.toOption)
    (hcore : t.2.exchange.core = f.exchange.openSingle.2.core)
    (hg : Move.given? (m, t.1) = f.exchange.openSingle.1.toOption.map Prod.fst) : Gives f m t where
  ticket p k hk := by
    rw [Exchange.ticket?_congr hcore] at hk
    rcases f.exchange.openSingle_opened.ticket hk with hold | hnew
    · exact .inl hold
    · exact .inr (by rw [ho, hnew]; rfl)
  inbox p hb := by
    rw [Exchange.inbox_congr hcore, f.exchange.openSingle_opened.inbox_eq] at hb
    exact .inl hb
  slots h := by
    rw [Exchange.pending_congr hcore]
    rw [ho] at h
    have hopened := f.exchange.openSingle_opened
    cases hr : f.exchange.openSingle.1 with
    | ok a =>
      rw [hr] at h
      cases h
    | error e =>
      rw [hr] at hopened
      generalize f.exchange.openSingle.2 = y at hopened
      cases hopened <;> rfl
  opened p k h := by
    rw [hg, ← ho, h]
    rfl
  next p h := by
    rw [hg, Option.map_eq_some_iff] at h
    obtain ⟨⟨q, k⟩, hq, rfl⟩ := h
    obtain ⟨hp, -, -, r, -, -, hx⟩ := Exchange.openSingle_ok (ok_of_toOption hq)
    refine ⟨hp, ?_⟩
    rw [Exchange.nextPort_congr hcore, hx, hp]

theorem of_broadcast (task : String) {y : Exchange} (hx : f.exchange.Consistent)
    (ho : f.opened? m = none) (hy : y.core = (f.exchange.openBroadcast task).2.core)
    {owners : Nat} (ht : t.2.exchange = { y with owners := owners })
    (hg : Move.given? (m, t.1) =
      (f.exchange.openBroadcast task).1.toOption.map Exchange.Broadcast.id) : Gives f m t := by
  have hopened := f.exchange.openBroadcast_opened task
  have hpending : t.2.exchange.pending = f.exchange.pending := by
    rw [congrArg Exchange.pending ht]
    exact (Exchange.pending_congr hy).trans hopened.pending_eq
  have hinbox : ∀ p, t.2.exchange.inbox p = (f.exchange.openBroadcast task).2.inbox p := by
    intro p
    rw [congrArg (Exchange.inbox · p) ht]
    exact Exchange.inbox_congr hy p
  have hnext : t.2.exchange.nextPort = (f.exchange.openBroadcast task).2.nextPort := by
    rw [congrArg Exchange.nextPort ht]
    change y.nextPort = _
    exact Exchange.nextPort_congr hy
  refine ⟨?_, ?_, fun _ => by rw [hpending], ?_, ?_⟩
  · intro p k hk
    rw [Exchange.ticket?, hpending] at hk
    exact .inl hk
  · intro p hb
    rw [hinbox] at hb
    rw [hg]
    exact hopened.inbox_open hx hb
  · intro p k h
    rw [ho] at h
    cases h
  · intro p h
    rw [hg, Option.map_eq_some_iff] at h
    obtain ⟨b, hb, rfl⟩ := h
    obtain ⟨hp, -, hopened⟩ := Exchange.openBroadcast_ok (ok_of_toOption hb)
    exact ⟨hp, hnext.trans ((congrArg Exchange.Core.nextPort hopened).trans (by rw [hp]))⟩

end Gives

theorem gives_begin {β : Type} {r : Except Fault β × Exchange} {port : β → PortId}
    {running : β → Running α ε} (hd : f.session.dispatcher = false) (ho : f.opened? m = none)
    (hg : Move.given? (m, .noDispatcher) = none) : Gives f m (f.begin r port running) := by
  unfold Floor.begin
  rw [hd]
  exact .of_nothing rfl ho hg

theorem gives_beginAsync (task : String) (codec : Codec α ε) :
    Gives f (.beginAsync task codec) (f.apply thread (.beginAsync task codec)) := by
  change Gives f _ (f.begin _ _ _)
  cases hd : f.session.dispatcher with
  | false => exact gives_begin hd (if_neg (by rw [hd]; exact Bool.false_ne_true)) rfl
  | true =>
    have hopened : f.opened? (.beginAsync task codec) = f.exchange.openSingle.1.toOption :=
      if_pos hd
    unfold Floor.begin
    rw [if_pos hd]
    cases ho : f.exchange.openSingle.1 with
    | error e =>
      rw [Exchange.beginAsync_error task ho]
      exact .of_single hopened rfl (by rw [ho]; rfl)
    | ok a =>
      obtain ⟨y, hcore, hbegin⟩ := Exchange.beginAsync_ok task ho
      rw [hbegin]
      exact .of_single hopened hcore (by rw [ho]; rfl)

theorem gives_beginStream (hx : f.exchange.Consistent) (task : String) (codec : Codec α ε) :
    Gives f (.beginStream task codec) (f.apply thread (.beginStream task codec)) := by
  change Gives f _ (f.begin _ _ _)
  cases hd : f.session.dispatcher with
  | false => exact gives_begin hd rfl rfl
  | true =>
    unfold Floor.begin
    rw [if_pos hd]
    cases ho : (f.exchange.openBroadcast task).1 with
    | error e =>
      rw [Exchange.beginStream_error task ho]
      exact .of_broadcast task hx rfl rfl rfl (by rw [ho]; rfl)
    | ok b =>
      obtain ⟨y, hcore, hbegin⟩ := Exchange.beginStream_ok task ho
      rw [hbegin]
      exact .of_broadcast task hx rfl hcore rfl (by rw [ho]; rfl)

theorem gives_openSingle (h : (Step.openSingle : Step α ε).isElementary = true) :
    Gives f (.step .openSingle h) (f.apply thread (.step .openSingle h)) := by
  change Gives f _ (f.turn (f.session.withDispatcher _))
  unfold Session.withDispatcher
  cases hd : f.session.dispatcher with
  | false => exact .of_nothing rfl (if_neg (by rw [hd]; exact Bool.false_ne_true)) rfl
  | true =>
    have hopened : f.opened? (.step .openSingle h) = f.exchange.openSingle.1.toOption := if_pos hd
    rw [if_pos rfl, session_exchange]
    dsimp only
    cases ho : f.exchange.openSingle.1 with
    | error e => exact .of_single hopened rfl (by rw [ho]; rfl)
    | ok a => exact .of_single hopened rfl (by rw [ho]; rfl)

theorem gives_openBroadcast (hx : f.exchange.Consistent) (task : String)
    (h : (Step.openBroadcast task : Step α ε).isElementary = true) :
    Gives f (.step (.openBroadcast task) h) (f.apply thread (.step (.openBroadcast task) h)) := by
  change Gives f _ (f.turn (f.session.withDispatcher _))
  unfold Session.withDispatcher
  cases hd : f.session.dispatcher with
  | false => exact .of_nothing rfl rfl rfl
  | true =>
    rw [if_pos rfl, session_exchange]
    dsimp only
    cases ho : (f.exchange.openBroadcast task).1 with
    | error e => exact .of_broadcast task hx rfl rfl rfl (by rw [ho]; rfl)
    | ok b => exact .of_broadcast task hx rfl rfl rfl (by rw [ho]; rfl)

theorem opened?_of_opensPort (hm : m.opensPort = false) : f.opened? m = none := by
  unfold opened?
  split <;> first | cases hm | rfl

theorem Effect.opens_none {a : Answer α ε} {f' : Floor α ε} {ops : List Op}
    (he : Effect f m a f' ops) (hm : m.opensPort = false) : ops.countP Op.opens = 0 := by
  have hopens := he.opens
  rw [hm] at hopens
  exact Nat.le_zero.1 hopens

theorem Sound.gives (hs : f.Sound (m.opensPort.toNat + n)) (thread : Option String) :
    Gives f m (f.apply thread m) := by
  cases hm : m.opensPort with
  | false =>
    obtain ⟨ops, he⟩ := hs.effect thread m
    have hzero := he.opens_none hm
    refine ⟨fun p k hk => .inl (he.runs.ticket_old hs.consistent (he.fit hs) hzero hk),
      fun p hb => .inl (he.runs.inbox_open_old hs.consistent (he.fit hs) hzero hb),
      fun _ => he.runs.slots_length hs.consistent (he.fit hs) hzero, ?_, ?_⟩
    · intro p k h
      rw [opened?_of_opensPort hm] at h
      cases h
    · intro p h
      rw [Move.given?_of_opensPort hm] at h
      cases h
  | true =>
    unfold Move.opensPort at hm
    split at hm
    · exact gives_beginAsync _ _
    · exact gives_beginStream hs.consistent _ _
    · exact gives_openSingle _
    · exact gives_openBroadcast hs.consistent _ _
    · cases hm

theorem Gives.issued (hg : Gives f m t) (hs : f.Sound (m.opensPort.toNat + n))
    (hp : Move.given? (m, t.1) = some p) : t.2.exchange.Issued p := by
  have hm : m.opensPort = true := by
    cases hm : m.opensPort with
    | true => rfl
    | false =>
      rw [Move.given?_of_opensPort hm] at hp
      cases hp
  obtain ⟨rfl, hnext⟩ := hg.next p hp
  exact Exchange.issued_new hs.consistent (hs.hasRoom hm) hnext

theorem grows_apply (hs : f.Sound (m.opensPort.toNat + n)) (thread : Option String) :
    Exchange.Grows f.exchange (f.apply thread m).2.exchange := by
  obtain ⟨ops, he⟩ := hs.effect thread m
  exact he.runs.grows hs.consistent (he.fit hs)

theorem grows_run (thread : Option String) (hs : f.Sound (ms.countP Move.opensPort + n)) :
    Exchange.Grows f.exchange (run thread ms f).exchange := by
  induction ms generalizing f with
  | nil => exact .of_core rfl
  | cons m ms ih =>
    rw [countP_opens_cons] at hs
    exact (grows_apply hs thread).trans (ih (hs.apply thread))

theorem given_append (h h' : List (Move α ε × Answer α ε)) :
    given (h ++ h') = given h ++ given h' :=
  List.filterMap_append

theorem given_cons (e : Move α ε × Answer α ε) (h : List (Move α ε × Answer α ε)) :
    given (e :: h) = (Move.given? e).toList ++ given h := by
  rw [given, List.filterMap_cons]
  cases Move.given? e <;> rfl

theorem issued_given (hs : f.Sound (ms.countP Move.opensPort + n))
    (hp : p ∈ given (history thread ms f)) :
    (run thread ms f).exchange.Issued p := by
  induction ms generalizing f with
  | nil => cases hp
  | cons m ms ih =>
    rw [countP_opens_cons] at hs
    rw [history, given_cons, List.mem_append, Option.mem_toList] at hp
    rcases hp with hp | hp
    · exact (grows_run thread (hs.apply thread)).issued p ((hs.gives thread).issued hs hp)
    · exact ih (hs.apply thread) hp

/-- What is given out from now on is greater than what has been given out. -/
theorem lt_of_given (hs : f.Sound (ms.countP Move.opensPort + n)) (hp : f.exchange.Issued p) :
    ∀ q ∈ given (history thread ms f), p.raw.toInt < q.raw.toInt := by
  induction ms generalizing f with
  | nil =>
    intro q hq
    cases hq
  | cons m ms ih =>
    rw [countP_opens_cons] at hs
    intro q hq
    rw [history, given_cons, List.mem_append, Option.mem_toList] at hq
    rcases hq with hq | hq
    · rw [((hs.gives thread).next q hq).1]
      exact hp.2
    · exact ih (hs.apply thread) ((grows_apply hs thread).issued p hp) q hq

theorem pairwise_given (thread : Option String) (hs : f.Sound (ms.countP Move.opensPort + n)) :
    (given (history thread ms f)).Pairwise fun p q => p.raw < q.raw := by
  induction ms generalizing f with
  | nil => exact .nil
  | cons m ms ih =>
    rw [countP_opens_cons] at hs
    rw [history, given_cons]
    cases hg : Move.given? (m, (f.apply thread m).1) with
    | none => exact ih (hs.apply thread)
    | some p =>
      refine .cons (fun q hq => ?_) (ih (hs.apply thread))
      have hissued := (hs.gives thread).issued hs hg
      exact Int64.lt_iff_toInt_lt.2 (lt_of_given (hs.apply thread) hissued q hq)

/-- The ports for one delivery opened so far, with their tickets, in order. -/
def openings (thread : Option String) : List (Move α ε) → Floor α ε → List (PortId × Ticket)
  | [], _ => []
  | m :: ms, f => (f.opened? m).toList ++ openings thread ms (f.apply thread m).2

theorem openings_sublist (thread : Option String) (hs : f.Sound (ms.countP Move.opensPort + n)) :
    ((openings thread ms f).map Prod.fst).Sublist (given (history thread ms f)) := by
  induction ms generalizing f with
  | nil => exact .slnil
  | cons m ms ih =>
    rw [countP_opens_cons] at hs
    rw [openings, history, given_cons, List.map_append]
    refine .append ?_ (ih (hs.apply thread))
    cases ho : f.opened? m with
    | none => exact List.nil_sublist _
    | some a =>
      rw [(hs.gives thread).opened a.1 a.2 ho]
      exact .refl _

theorem opened?_ticket (thread : Option String) (h : f.opened? m = some (p, k)) :
    k = f.exchange.pending.slots.length ∧
      (f.apply thread m).2.exchange.pending.slots.length = k + 1 := by
  obtain ⟨-, -, ho, hcore⟩ := opened?_eq_some thread h
  obtain ⟨-, hk, -, r, -, hr, hx⟩ := Exchange.openSingle_ok ho
  refine ⟨hk, ?_⟩
  rw [Exchange.pending_congr hcore, hx, hk]
  exact hr

theorem ticket_opened (thread : Option String) (ho : f.opened? m = some (p, k)) :
    p = f.exchange.nextPort ∧ ((f.apply thread m).2.exchange.ticket? p).isSome = true := by
  obtain ⟨-, -, hok, hcore⟩ := opened?_eq_some thread ho
  obtain ⟨hp, -, -, r, hr, -, hx⟩ := Exchange.openSingle_ok hok
  refine ⟨hp, ?_⟩
  rw [Exchange.ticket?_congr hcore, hx, Exchange.ticket?, Pending.ticket?_register hr, if_pos rfl]
  rfl

/-- A handle that is new and knows a ticket is on the port that was opened with it. -/
theorem Sound.opened_of_fresh (hs : f.Sound (m.opensPort.toNat + n)) {h : Handle α ε}
    (hfresh : h.Fresh m f.exchange (f.apply thread m).2.exchange) (hk : h.ticket? = some k) :
    ∃ p, f.opened? m = some (p, k) ∧ ∀ p', h.port? = some p' → p' = p := by
  obtain ⟨hlast, hlength⟩ := hfresh.ticket k hk
  cases ho : f.opened? m with
  | none =>
    rw [(hs.gives thread).slots ho] at hlength
    exact absurd hlength (Nat.ne_of_lt (Nat.lt_succ_self _))
  | some a =>
    obtain ⟨p, j⟩ := a
    have hj : j = k := (opened?_ticket thread ho).1.trans hlast.symm
    obtain ⟨-, -, hok, -⟩ := opened?_eq_some thread ho
    refine ⟨p, by rw [hj], fun p' hp' => ?_⟩
    rw [(hfresh.port p' hp').2.1, (Exchange.openSingle_ok hok).1]

theorem lt_of_openings (hs : f.Sound (ms.countP Move.opensPort + n))
    (hk : k < f.exchange.pending.slots.length) : ∀ a ∈ openings thread ms f, k < a.2 := by
  induction ms generalizing f with
  | nil =>
    intro a ha
    cases ha
  | cons m ms ih =>
    rw [countP_opens_cons] at hs
    intro a ha
    rw [openings, List.mem_append, Option.mem_toList] at ha
    rcases ha with ha | ha
    · rw [(opened?_ticket thread ha).1]
      exact hk
    · exact ih (hs.apply thread) (Nat.lt_of_lt_of_le hk (grows_apply hs thread).slots) a ha

theorem pairwise_openings (thread : Option String) (hs : f.Sound (ms.countP Move.opensPort + n)) :
    (openings thread ms f).Pairwise fun a b => a.2 < b.2 := by
  induction ms generalizing f with
  | nil => exact .nil
  | cons m ms ih =>
    rw [countP_opens_cons] at hs
    rw [openings]
    cases ho : f.opened? m with
    | none => exact ih (hs.apply thread)
    | some a =>
      refine .cons (fun b hb => ?_) (ih (hs.apply thread))
      have hlength := (opened?_ticket thread ho).2
      exact lt_of_openings (hs.apply thread) (by rw [hlength]; exact Nat.lt_succ_self _) b hb

end Floor

end CallExchange
