import CallExchange.Proofs.Floor.Finds

set_option autoImplicit false

/-!
# Who holds the exchange

The handles that keep an exchange alive, once as the history of a floor has them and once as the
floor itself has them. A move changes both in the same way.
-/

namespace CallExchange

variable {α ε : Type}

namespace Move

/-- Whether a move that is answered like this was the last use of a handle that may hold the
exchange. A pull is the last one of its stream when it finds the end, or anything but an element. -/
def endsHold : Move α ε × Answer α ε → Bool
  | (.step .dropDispatcher _, .reply .nothing) => true
  | (.step (.dropDeferred _) _, .reply .nothing) => true
  | (.step (.wait _) _, .result _) | (.step (.wait _) _, .unwound _) => true
  | (.step (.next _) _, .ended) | (.step (.nextTimeout _ _) _, .ended) => true
  | (.step (.next _) _, .result (.error _)) => true
  | (.step (.nextTimeout _ _) _, .result (.error _)) => true
  | (.step (.closeStream _) _, .reply .nothing) | (.step (.dropStream _) _, .reply .nothing) => true
  | _ => false

/-- The handle that a move let go of the exchange by. -/
def letsGo? (e : Move α ε × Answer α ε) : Option Place := if endsHold e then e.1.place? else none

/-- The handle that a move made and that holds the exchange from then on: the result or the stream
of a call whose entry did not abort. -/
def takesHold? : Move α ε × Answer α ε → Option Place
  | (.finish _ (.ok _), .deferred n _ _ _) => some ⟨.deferreds, n⟩
  | (.finish _ (.ok _), .stream n _ _) => some ⟨.streams, n⟩
  | _ => none

theorem letsGo?_of_place? {m : Move α ε} {q : Place} {a : Answer α ε}
    (h : letsGo? (m, a) = some q) :
    m.place? = some q := by
  unfold letsGo? at h
  split at h
  · exact h
  · cases h

end Move

namespace Floor

def holdersAfter (l : List Place) (e : Move α ε × Answer α ε) : List Place :=
  l.filter (fun q => Move.letsGo? e ≠ some q) ++ (Move.takesHold? e).toList

/-- What holds the exchange after all that happened: the dispatcher handle, results and streams. -/
def holders (h : List (Move α ε × Answer α ε)) : List Place :=
  h.foldl holdersAfter [⟨.dispatcher, 0⟩]

/-- Whether there is a handle in a place that holds the exchange. A call that runs does so only for
its stream to come, next to the dispatcher handle, and is left out. -/
def Holds (f : Floor α ε) (q : Place) : Prop := q.shelf ≠ .running ∧ 0 < weight (f.handle? q)

variable {f f' : Floor α ε} {m : Move α ε} {a : Answer α ε} {n : Nat} {q q₀ : Place}
  {h' : Option (Handle α ε)} {thread : Option String}

theorem exists_of_total {l : List (Option (Handle α ε))} (h : 0 < total l) :
    ∃ i : Nat, 0 < weight l[i]?.join := by
  induction l with
  | nil => exact absurd h (Nat.lt_irrefl 0)
  | cons a l ih =>
    by_cases ha : 0 < weight a
    · exact ⟨0, ha⟩
    · obtain ⟨i, hi⟩ := ih (by rw [total] at h; omega)
      exact ⟨i + 1, hi⟩

theorem exists_of_claims (h : 0 < f.claims) : ∃ q, 0 < weight (f.handle? q) := by
  have htable : ∃ s, 0 < total (f.table s) := by
    by_contra hnone
    simp only [not_exists, Nat.not_lt] at hnone
    have hd := hnone .dispatcher
    have hdef := hnone .deferreds
    have hst := hnone .streams
    have hb := hnone .broadcasts
    have hsing := hnone .singles
    have hr := hnone .running
    rw [claims] at h
    omega
  obtain ⟨s, hs⟩ := htable
  obtain ⟨i, hi⟩ := exists_of_total hs
  exact ⟨⟨s, i⟩, hi⟩

theorem handle?_of_weight (h : 0 < weight (f.handle? q)) :
    ∃ h, f.handle? q = some h ∧ 0 < h.owns := by
  cases hq : f.handle? q with
  | none =>
    rw [hq] at h
    exact absurd h (Nat.lt_irrefl 0)
  | some h₁ =>
    rw [hq] at h
    exact ⟨h₁, rfl, h⟩

theorem isCall_of_owns {r : Running α ε} (h : 0 < (Handle.running r).owns) :
    (Handle.running r).isCall = true := by
  cases r with
  | stream => rfl
  | async | sync | callback => exact absurd h (Nat.lt_irrefl 0)

theorem holds_dispatcher (h : f.session.dispatcher = true) : f.Holds ⟨.dispatcher, 0⟩ := by
  refine ⟨by simp, ?_⟩
  rw [handle?_dispatcher h]
  exact Nat.zero_lt_one

theorem holds_stream : f.Holds ⟨.streams, n⟩ ↔
    ∃ st, f.session.streams[n]?.join = some st ∧ st.holds = true := by
  constructor
  · rintro ⟨-, hweight⟩
    obtain ⟨h, hq, howns⟩ := handle?_of_weight hweight
    rw [handle?_eq_map rfl, Option.map_eq_some_iff] at hq
    obtain ⟨st, hst, rfl⟩ := hq
    refine ⟨st, hst, Bool.of_not_eq_false fun hfree => ?_⟩
    rw [Handle.owns, hfree] at howns
    exact absurd howns (Nat.lt_irrefl 0)
  · rintro ⟨st, hst, hholds⟩
    refine ⟨by simp, ?_⟩
    rw [handle?_stream hst]
    change 0 < st.holds.toNat
    rw [hholds]
    exact Nat.one_pos

theorem holds_iff_of_stream {st : Stream α ε} (hst : f.session.streams[n]?.join = some st) :
    f.Holds ⟨.streams, n⟩ ↔ st.holds = true := by
  rw [holds_stream]
  constructor
  · rintro ⟨st', hst', hholds⟩
    cases hst.symm.trans hst'
    exact hholds
  · intro hholds
    exact ⟨st, hst, hholds⟩

/-- An exchange is there exactly as long as something holds it. -/
theorem Sound.alive_iff (hs : f.Sound n) : f.exchange.isGone = false ↔ ∃ q, f.Holds q := by
  constructor
  · intro hlive
    have hclaims : 0 < f.claims := by
      rw [Exchange.isGone, decide_eq_false_iff_not, hs.owned] at hlive
      omega
    obtain ⟨⟨s, i⟩, hq⟩ := exists_of_claims hclaims
    by_cases hrunning : s = .running
    · subst hrunning
      obtain ⟨h, hh, howns⟩ := handle?_of_weight hq
      have hmap := hh
      rw [handle?_eq_map rfl, Option.map_eq_some_iff] at hmap
      obtain ⟨r, -, rfl⟩ := hmap
      exact ⟨_, holds_dispatcher (hs.calls _ _ hh (isCall_of_owns howns))⟩
    · exact ⟨_, hrunning, hq⟩
  · rintro ⟨q, -, hq⟩
    obtain ⟨h, hh, howns⟩ := handle?_of_weight hq
    exact hs.isGone (Nat.le_trans howns (owns_le_claims hh))

theorem Sound.alive_iff_others {q : Place} (hs : f.Sound n) (hq : ¬ f.Holds q) :
    f.exchange.isGone = false ↔ ∃ q', q' ≠ q ∧ f.Holds q' := by
  rw [hs.alive_iff]
  constructor
  · rintro ⟨q', hq'⟩
    refine ⟨q', ?_, hq'⟩
    rintro rfl
    exact hq hq'
  · rintro ⟨q', -, hq'⟩
    exact ⟨q', hq'⟩

def Accounts (f : Floor α ε) (m : Move α ε) (t : Turn α ε) : Prop :=
  ∀ q, t.2.Holds q ↔ f.Holds q ∧ Move.letsGo? (m, t.1) ≠ some q ∨ Move.takesHold? (m, t.1) = some q

structure SameHolders (f f' : Floor α ε) : Prop where
  dispatcher : f'.session.dispatcher = f.session.dispatcher
  deferreds : f'.session.deferreds = f.session.deferreds
  streams : f'.session.streams = f.session.streams

theorem SameHolders.holds_iff (h : SameHolders f f') : f'.Holds q ↔ f.Holds q := by
  obtain ⟨s, i⟩ := q
  cases s with
  | dispatcher => rw [Holds, Holds, handle?, handle?, table, table, h.dispatcher]
  | deferreds => rw [Holds, Holds, handle?_eq_map rfl, handle?_eq_map rfl, h.deferreds]
  | streams => rw [Holds, Holds, handle?_eq_map rfl, handle?_eq_map rfl, h.streams]
  | broadcasts | singles =>
    have hnone : ∀ g : Floor α ε, ∀ s, s = .broadcasts ∨ s = .singles → ¬ g.Holds ⟨s, i⟩ := by
      rintro g s hs ⟨-, hg⟩
      obtain ⟨h, hq, howns⟩ := handle?_of_weight hg
      rcases hs with rfl | rfl <;>
      · rw [handle?_eq_map rfl, Option.map_eq_some_iff] at hq
        obtain ⟨b, -, rfl⟩ := hq
        exact absurd howns (Nat.lt_irrefl 0)
    exact iff_of_false (hnone f' _ (by simp)) (hnone f _ (by simp))
  | running => exact iff_of_false (fun h => h.1 rfl) fun h => h.1 rfl

theorem Swap.holds_iff (hs : Swap q₀ h' f f') (hq₀ : q₀.shelf ≠ .running) :
    f'.Holds q ↔ if q = q₀ then 0 < weight h' else f.Holds q := by
  rw [Holds, hs.handle]
  split
  · rename_i he
    rw [he]
    exact and_iff_right hq₀
  · rfl

theorem accounts_same {t : Turn α ε} (h : SameHolders f t.2) (hl : Move.endsHold (m, t.1) = false)
    (ht : Move.takesHold? (m, t.1) = none) : f.Accounts m t := by
  intro q
  rw [Move.letsGo?, hl, ht, h.holds_iff]
  simp

theorem accounts_kept (hs : Swap q₀ h' f f') (hq₀ : q₀.shelf ≠ .running)
    (hw : weight h' = weight (f.handle? q₀)) (hl : Move.endsHold (m, a) = false)
    (ht : Move.takesHold? (m, a) = none) : f.Accounts m (a, f') := by
  intro q
  rw [Move.letsGo?, hl, ht, hs.holds_iff hq₀, hw]
  by_cases he : q = q₀
  · subst he
    simp [Holds, hq₀]
  · simp [he]

theorem accounts_ended (hm : m.place? = some q₀) (hs : Swap q₀ h' f f') (hq₀ : q₀.shelf ≠ .running)
    (hw : weight h' = 0) (hl : Move.endsHold (m, a) = true) (ht : Move.takesHold? (m, a) = none) :
    f.Accounts m (a, f') := by
  intro q
  rw [Move.letsGo?, hl, ht, if_pos rfl, hm, hs.holds_iff hq₀, hw]
  by_cases he : q = q₀
  · subst he
    simp
  · simp [he, Ne.symm he]

theorem accounts_new {h : Handle α ε} (hs : Swap q₀ (some h) f f') (hq₀ : q₀.shelf ≠ .running)
    (hw : 0 < h.owns) (hl : Move.endsHold (m, a) = false)
    (ht : Move.takesHold? (m, a) = some q₀) : f.Accounts m (a, f') := by
  intro q
  rw [Move.letsGo?, hl, ht, hs.holds_iff hq₀]
  by_cases he : q = q₀
  · subst he
    simpa [weight] using hw
  · simp [he, Ne.symm he]

theorem SameHolders.refl (f : Floor α ε) : SameHolders f f := ⟨rfl, rfl, rfl⟩

theorem same_settle {β : Type} (o : Outcome Stage β) {g : β → Session α ε → Session.Turn α ε}
    (hg : ∀ b s, (g b s).2 = s) : SameHolders f (f.turn (f.session.settle o g)).2 := by
  cases o with
  | returned b st =>
    rw [Session.settle, turn, hg]
    exact ⟨rfl, rfl, rfl⟩
  | unwound | exhausted => exact ⟨rfl, rfl, rfl⟩

theorem same_withDispatcher {g : Exchange → Session.Turn α ε}
    (hg : SameHolders f (f.turn (g f.exchange)).2) :
    SameHolders f (f.turn (f.session.withDispatcher g)).2 := by
  unfold Session.withDispatcher
  split
  · exact hg
  · exact .refl f

theorem same_withHandle {η : Type} (handles : List (Option η)) {g : η → Session.Turn α ε}
    (hg : ∀ e, SameHolders f (f.turn (g e)).2) :
    SameHolders f (f.turn (f.session.withHandle handles n g)).2 := by
  unfold Session.withHandle
  split
  · exact hg _
  · exact .refl f

theorem same_receiveBy (late : Answer α ε)
    (g : Inbox → Except Panic (Option Inbox.Received × Inbox)) :
    SameHolders f (f.turn (f.session.receiveBy n late g)).2 := by
  refine same_withHandle _ fun b => ?_
  split <;> exact ⟨rfl, rfl, rfl⟩

theorem same_withNotifier (g : Notifier → Bool × Notifier) :
    SameHolders f (f.turn (f.session.withNotifier g)).2 := by
  unfold Session.withNotifier
  dsimp only
  split <;> exact ⟨rfl, rfl, rfl⟩

theorem same_begin {β : Type} (r : Except Fault β × Exchange) (port : β → PortId)
    (code : β → Running α ε) : SameHolders f (f.begin r port code).2 := by
  unfold Floor.begin
  split
  · split <;> exact ⟨rfl, rfl, rfl⟩
  · exact .refl f

theorem same_beginCallback (message : Value) : SameHolders f (f.beginCallback message).2 := by
  unfold Floor.beginCallback
  dsimp only
  split
  · exact .refl f
  · split
    · exact same_settle _ fun _ _ => rfl
    · exact ⟨rfl, rfl, rfl⟩

theorem withHandle_accounts {η : Type} {handles : List (Option η)} {g : η → Session.Turn α ε}
    (hl : Move.endsHold (m, .reply .noHandle) = false)
    (ht : Move.takesHold? (m, .reply .noHandle) = none)
    (h : ∀ e, handles[n]?.join = some e → f.Accounts m (f.turn (g e))) :
    f.Accounts m (f.turn (f.session.withHandle handles n g)) := by
  unfold Session.withHandle
  cases he : handles[n]?.join with
  | none => exact accounts_same (.refl f) hl ht
  | some e => exact h e he

theorem readDeferred_accounts
    {g : OneShot Value → Except Panic (Option (OneShot.Verdict Value) × OneShot Value)}
    (hg : Deferred.ReadsSlot g) (late : Answer α ε) (hl : ∀ a, Move.endsHold (m, a) = false)
    (ht : ∀ a, Move.takesHold? (m, a) = none) :
    f.Accounts m (f.turn (f.session.readDeferred n late (Deferred.readBy thread g))) := by
  refine withHandle_accounts (hl _) (ht _) fun d hd => ?_
  rw [session_exchange]
  cases hstate : d.state with
  | failed failure =>
    rw [Deferred.readBy_failed thread g hstate]
    refine accounts_kept (swap_deferred hd (some _) _) (by simp) ?_ (hl _) (ht _)
    rw [handle?_deferred hd]
    simp [weight, Handle.owns, Deferred.holds, hstate]
  | waiting k =>
    obtain ⟨y, hends, -⟩ := Deferred.readBy_waiting thread hg hstate f.exchange
    have hkept : ∀ a, f.Accounts m (a, { f with
        session := (f.session.put y).setDeferred n (some d) }) := fun a =>
      accounts_kept (swap_deferred hd (some d) (f.session.put y).stage) (by simp)
        (by rw [handle?_deferred hd]; rfl) (hl a) (ht a)
    rcases hends with ⟨b, hb⟩ | ⟨p, hp⟩
    · rw [hb]
      exact hkept _
    · rw [hp]
      exact hkept _

theorem wait_ready (thread : Option String) {d : Deferred α ε} {x : Exchange}
    (hready : d.isReady x = true) :
    ∃ y, (∃ r, d.wait thread x = .returned (some r) y) ∨ ∃ p, d.wait thread x = .unwound p y := by
  cases hstate : d.state with
  | failed failure => exact ⟨x, .inl ⟨_, Deferred.wait_failed thread hstate x⟩⟩
  | waiting k =>
    obtain ⟨v, s, hs⟩ := Deferred.slot_of_isReady hstate hready
    rw [Deferred.wait_settled thread hstate hs]
    obtain ⟨y, -, ⟨r, hr⟩ | ⟨p, hp⟩⟩ := d.finish_endsIn thread v (x.setSlot k s)
    · rw [hr]
      exact ⟨_, .inl ⟨r, rfl⟩⟩
    · rw [hp]
      exact ⟨_, .inr ⟨p, rfl⟩⟩

theorem wait_accounts (h : (Step.wait n : Step α ε).isElementary = true) :
    f.Accounts (.step (.wait n) h) (f.apply thread (.step (.wait n) h)) := by
  refine withHandle_accounts rfl rfl fun d hd => ?_
  split
  · rename_i hready
    obtain ⟨y, ⟨r, hr⟩ | ⟨p, hp⟩⟩ := wait_ready thread hready
    · rw [hr]
      exact accounts_ended rfl (swap_deferred hd none (f.session.put y).stage) (by simp) rfl rfl rfl
    · rw [hp]
      exact accounts_ended rfl (swap_deferred hd none (f.session.put y).stage) (by simp) rfl rfl rfl
  · exact accounts_same (.refl f) rfl rfl

theorem dropDeferred_accounts (h : (Step.dropDeferred n : Step α ε).isElementary = true) :
    f.Accounts (.step (.dropDeferred n) h) (f.apply thread (.step (.dropDeferred n) h)) := by
  refine withHandle_accounts rfl rfl fun d hd => ?_
  exact accounts_ended rfl (swap_deferred hd none _) (by simp) rfl rfl rfl

def goesOn : Stream.Pull α ε → Bool
  | .item (.ok _) | .nothingYet => true
  | .item (.error _) | .done => false

theorem holds_finish (c : Stream α ε) (x : Exchange) : (c.finish x).1.holds = false := rfl

theorem accept_holds (thread : Option String) (r : Inbox.Received) (c : Stream α ε) (x : Exchange) :
    ∃ c' y, (∃ pulled, Stream.accept thread r (c, x) = .returned pulled (c', y) ∧
        c'.holds = (c.holds && goesOn pulled)) ∨
      ∃ p, Stream.accept thread r (c, x) = .unwound p (c', y) ∧ c'.holds = c.holds := by
  cases r with
  | ended => exact ⟨_, _, .inl ⟨_, rfl, by simp [Stream.holds, goesOn]⟩⟩
  | value v =>
    simp only [Stream.accept]
    split
    · exact ⟨_, _, .inl ⟨_, rfl, by simp [Stream.holds, goesOn]⟩⟩
    · cases c.codec.decode v with
      | error p => exact ⟨_, _, .inr ⟨p, rfl, rfl⟩⟩
      | ok d =>
        cases d with
        | success a => exact ⟨_, _, .inl ⟨_, rfl, by simp [goesOn]⟩⟩
        | application | abort | malformed =>
          exact ⟨_, _, .inl ⟨_, rfl, by simp [holds_finish, goesOn, Reader.lift]⟩⟩

theorem pullBy_holds (thread : Option String)
    (g : Inbox → Except Panic (Option Inbox.Received × Inbox)) (c : Stream α ε) (x : Exchange) :
    ∃ c' y, (∃ pulled, Stream.pullBy thread g (c, x) = .returned pulled (c', y) ∧
        c'.holds = (c.holds && goesOn pulled)) ∨
      ∃ p, Stream.pullBy thread g (c, x) = .unwound p (c', y) ∧ c'.holds = c.holds := by
  simp only [Stream.pullBy]
  cases hfailure : c.failure with
  | some failure => exact ⟨_, _, .inl ⟨_, rfl, by simp [Stream.holds, goesOn]⟩⟩
  | none =>
    dsimp only
    split
    · rename_i hfinished
      exact ⟨_, _, .inl ⟨_, rfl, by simp [Stream.holds, hfinished]⟩⟩
    · cases g (x.inbox c.port.id) with
      | error p => exact ⟨_, _, .inr ⟨p, rfl, rfl⟩⟩
      | ok a =>
        obtain ⟨_ | r, b⟩ := a
        · exact ⟨_, _, .inl ⟨_, rfl, by simp [goesOn]⟩⟩
        · exact accept_holds thread r c _

theorem pullStream_accounts (g : Inbox → Except Panic (Option Inbox.Received × Inbox))
    (answer : Stream.Pull α ε → Answer α ε) (hm : m.place? = some ⟨.streams, n⟩)
    (hl : ∀ pulled, Move.endsHold (m, answer pulled) = !goesOn pulled)
    (hp : ∀ p, Move.endsHold (m, .unwound p) = false) (hn : Move.endsHold (m, .reply .noHandle) = false)
    (ht : ∀ a, Move.takesHold? (m, a) = none) :
    f.Accounts m (f.turn (f.session.pullStream n (Stream.pullBy thread g) answer)) := by
  refine withHandle_accounts hn (ht _) fun c hc => ?_
  have hweight : weight (f.handle? ⟨.streams, n⟩) = c.holds.toNat := by
    rw [handle?_stream hc]
    rfl
  obtain ⟨c', y, ⟨pulled, hpulled, hholds⟩ | ⟨p, hunwound, hholds⟩⟩ :=
    pullBy_holds thread g c f.exchange
  · have hswap := swap_stream hc (some c') (f.session.put y).stage
    rw [session_exchange, hpulled]
    cases hgoes : goesOn pulled with
    | true =>
      refine accounts_kept hswap (by simp) ?_ (by rw [hl, hgoes]; rfl) (ht _)
      rw [hgoes, Bool.and_true] at hholds
      rw [hweight, ← hholds]
      rfl
    | false =>
      refine accounts_ended hm hswap (by simp) ?_ (by rw [hl, hgoes]; rfl) (ht _)
      change c'.holds.toNat = 0
      rw [hholds, hgoes, Bool.and_false]
      rfl
  · rw [session_exchange, hunwound]
    refine accounts_kept (swap_stream hc (some c') (f.session.put y).stage) (by simp) ?_ (hp p) (ht _)
    rw [hweight, ← hholds]
    rfl

theorem closeStream_accounts (h : (Step.closeStream n : Step α ε).isElementary = true) :
    f.Accounts (.step (.closeStream n) h) (f.apply thread (.step (.closeStream n) h)) := by
  refine withHandle_accounts rfl rfl fun c hc => ?_
  have hover : (c.close f.session.exchange).1.holds = false := by
    unfold Stream.close
    split
    · rename_i hfinished
      simp [Stream.holds, hfinished]
    · rfl
  refine accounts_ended rfl (swap_stream hc (some _) _) (by simp) ?_ rfl rfl
  exact congrArg Bool.toNat hover

theorem dropStream_accounts (h : (Step.dropStream n : Step α ε).isElementary = true) :
    f.Accounts (.step (.dropStream n) h) (f.apply thread (.step (.dropStream n) h)) := by
  refine withHandle_accounts rfl rfl fun c hc => ?_
  exact accounts_ended rfl (swap_stream hc none _) (by simp) rfl rfl rfl

theorem dropDispatcher_accounts (h : (Step.dropDispatcher : Step α ε).isElementary = true) :
    f.Accounts (.step .dropDispatcher h) (f.apply thread (.step .dropDispatcher h)) := by
  change f.Accounts _ (if f.isBusy then _ else f.turn (f.session.withDispatcher _))
  split
  · exact accounts_same (.refl f) rfl rfl
  · unfold Session.withDispatcher
    split
    · exact accounts_ended rfl (swap_dispatcher f f.exchange.release) (by simp) rfl rfl rfl
    · exact accounts_same (.refl f) rfl rfl

theorem Accounts.of_same {t : Turn α ε} (h : f'.Accounts m t) (hs : SameHolders f f') :
    f.Accounts m t := by
  intro q
  rw [h q, hs.holds_iff]

theorem conclude_accounts (f : Floor α ε) (thread : Option String) (i : Nat) (r : Running α ε)
    (ended : Except Panic Buffer) :
    f.Accounts (.finish i ended) (f.turn (conclude thread r ended f.session)) := by
  cases r with
  | async task codec p k =>
    cases ended with
    | ok b =>
      refine accounts_new (append_deferred f _ _) (by simp) Nat.zero_lt_one rfl ?_
      rw [table, List.length_map]
      rfl
    | error panic =>
      exact accounts_kept (append_deferred f _ _) (by simp) (f.weight_end _).symm rfl rfl
  | stream task codec port =>
    cases ended with
    | ok b =>
      refine accounts_new (append_stream f _ _) (by simp) Nat.zero_lt_one rfl ?_
      rw [table, List.length_map]
      rfl
    | error panic =>
      exact accounts_kept (append_stream f _ _) (by simp) (f.weight_end _).symm rfl rfl
  | sync task codec => exact accounts_same ⟨rfl, rfl, rfl⟩ rfl (by cases ended <;> rfl)
  | callback =>
    cases ended with
    | ok b => exact accounts_same ⟨rfl, rfl, rfl⟩ rfl rfl
    | error p => exact accounts_same ⟨rfl, rfl, rfl⟩ rfl rfl

theorem finish_accounts (i : Nat) (ended : Except Panic Buffer) :
    f.Accounts (.finish i ended) (f.apply thread (.finish i ended)) := by
  change f.Accounts _ (f.finish thread i ended)
  unfold Floor.finish
  split
  · exact accounts_same (.refl f) rfl (by cases ended <;> rfl)
  · rename_i r _
    have hover := conclude_accounts { f with running := f.running.set i none } thread i r ended
    exact hover.of_same ⟨rfl, rfl, rfl⟩

theorem step_accounts (st : Step α ε) (h : st.isElementary = true) :
    f.Accounts (.step st h) (f.apply thread (.step st h)) := by
  cases st with
  | callAsync | callStream | callSync | collect | pump | pumpOnce | threads => cases h
  | tryTake n => exact readDeferred_accounts Deferred.readsSlot_take _ (fun _ => rfl) fun _ => rfl
  | waitTimeout n t =>
    exact readDeferred_accounts (Deferred.readsSlot_takeWithin t) _ (fun _ => rfl) fun _ => rfl
  | poll n w => exact readDeferred_accounts (Deferred.readsSlot_poll w) _ (fun _ => rfl) fun _ =>
    rfl
  | wait n => exact wait_accounts h
  | dropDeferred n => exact dropDeferred_accounts h
  | next n =>
    refine pullStream_accounts _ _ rfl ?_ (fun _ => rfl) rfl fun _ => rfl
    rintro ((_ | _) | _ | _) <;> rfl
  | nextTimeout n t =>
    refine pullStream_accounts _ _ rfl ?_ (fun _ => rfl) rfl fun _ => rfl
    rintro ((_ | _) | _ | _) <;> rfl
  | closeStream n => exact closeStream_accounts h
  | dropStream n => exact dropStream_accounts h
  | dropDispatcher => exact dropDispatcher_accounts h
  | act a => exact accounts_same (same_settle _ fun _ _ => rfl) rfl rfl
  | ready n | deferredText n => exact accounts_same (same_withHandle _ fun _ => .refl f) rfl rfl
  | streamInfo n | broadcastInfo n =>
    exact accounts_same (same_withHandle _ fun _ => .refl f) rfl rfl
  | openSingle =>
    refine accounts_same (same_withDispatcher ?_) rfl rfl
    unfold Session.addSingle
    split <;> exact ⟨rfl, rfl, rfl⟩
  | openBroadcast task =>
    refine accounts_same (same_withDispatcher ?_) rfl rfl
    unfold Session.addBroadcast
    split <;> exact ⟨rfl, rfl, rfl⟩
  | readTicket n r =>
    refine accounts_same (t := f.turn (f.session.readTicket n r)) ?_ rfl rfl
    unfold Session.readTicket
    split <;> exact ⟨rfl, rfl, rfl⟩
  | receive n => exact accounts_same (same_receiveBy _ _) rfl rfl
  | receiveWithin n t => exact accounts_same (same_receiveBy _ _) rfl rfl
  | tryReceive n => exact accounts_same (same_withHandle _ fun _ => ⟨rfl, rfl, rfl⟩) rfl rfl
  | closeBroadcast n => exact accounts_same (same_withHandle _ fun _ => ⟨rfl, rfl, rfl⟩) rfl rfl
  | dropBroadcast n => exact accounts_same (same_withHandle _ fun _ => ⟨rfl, rfl, rfl⟩) rfl rfl
  | reverseHandle => exact accounts_same (same_withDispatcher ⟨rfl, rfl, rfl⟩) rfl rfl
  | waitForDelivery t =>
    refine accounts_same (same_withDispatcher ?_) rfl rfl
    split <;> exact ⟨rfl, rfl, rfl⟩
  | dispatcherText | dispatcherCounters | shutdownDispatcher | cloneDispatcher =>
    exact accounts_same (same_withDispatcher ⟨rfl, rfl, rfl⟩) rfl rfl
  | breakNotifier | saturateNotifier => exact accounts_same (same_withNotifier _) rfl rfl

theorem apply_accounts (thread : Option String) (m : Move α ε) :
    f.Accounts m (f.apply thread m) := by
  cases m with
  | step st h => exact step_accounts st h
  | deliver p v => exact accounts_same ⟨rfl, rfl, rfl⟩ rfl rfl
  | keep p => exact accounts_same ⟨rfl, rfl, rfl⟩ rfl rfl
  | see e => exact accounts_same ⟨rfl, rfl, rfl⟩ rfl rfl
  | announce task => exact accounts_same ⟨rfl, rfl, rfl⟩ rfl rfl
  | beginAsync task codec => exact accounts_same (same_begin _ _ _) rfl rfl
  | beginStream task codec => exact accounts_same (same_begin _ _ _) rfl rfl
  | beginSync task codec =>
    change f.Accounts _ (if f.session.dispatcher then _ else _)
    split <;> exact accounts_same ⟨rfl, rfl, rfl⟩ rfl rfl
  | beginCallback message => exact accounts_same (same_beginCallback message) rfl rfl
  | finish i ended => exact finish_accounts i ended

theorem mem_holdersAfter {l : List Place} {e : Move α ε × Answer α ε} :
    q ∈ holdersAfter l e ↔ q ∈ l ∧ Move.letsGo? e ≠ some q ∨ Move.takesHold? e = some q := by
  simp [holdersAfter]

theorem mem_holdersAfter_apply {l : List Place} (hl : ∀ q, q ∈ l ↔ f.Holds q)
    (thread : Option String) (m : Move α ε) (q : Place) :
    q ∈ holdersAfter l (m, (f.apply thread m).1) ↔ (f.apply thread m).2.Holds q := by
  rw [mem_holdersAfter, hl]
  exact (apply_accounts thread m q).symm

/-- The exchange is gone if and only if the history has it that nothing holds it any more. -/
theorem isEmpty_holdersAfter {l : List Place} (hl : ∀ q, q ∈ l ↔ f.Holds q)
    (hs : (f.apply thread m).2.Sound n) :
    (holdersAfter l (m, (f.apply thread m).1)).isEmpty = (f.apply thread m).2.exchange.isGone := by
  have hmem := mem_holdersAfter_apply hl thread m
  cases hgone : (f.apply thread m).2.exchange.isGone with
  | false =>
    obtain ⟨q, hq⟩ := hs.alive_iff.1 hgone
    rw [List.isEmpty_eq_false_iff]
    exact List.ne_nil_of_mem ((hmem q).2 hq)
  | true =>
    rw [List.isEmpty_iff, List.eq_nil_iff_forall_not_mem]
    intro q hq
    rw [hs.alive_iff.2 ⟨q, (hmem q).1 hq⟩] at hgone
    cases hgone

theorem holders_concat (h : List (Move α ε × Answer α ε)) (e : Move α ε × Answer α ε) :
    holders (h ++ [e]) = holdersAfter (holders h) e := by
  rw [holders, holders, List.foldl_append]
  rfl

theorem mem_foldl_holdersAfter (thread : Option String) {l : List Place}
    (h : ∀ q, q ∈ l ↔ f.Holds q) (ms : List (Move α ε)) (q : Place) :
    q ∈ (history thread ms f).foldl holdersAfter l ↔ (run thread ms f).Holds q := by
  induction ms generalizing f l with
  | nil => exact h q
  | cons m ms ih => exact ih (mem_holdersAfter_apply h thread m)

theorem holds_start (x : Exchange) (q : Place) :
    q ∈ [(⟨.dispatcher, 0⟩ : Place)] ↔ (start x : Floor α ε).Holds q := by
  rw [List.mem_singleton]
  constructor
  · rintro rfl
    exact holds_dispatcher rfl
  · rintro ⟨-, hq⟩
    obtain ⟨h, hq, -⟩ := handle?_of_weight hq
    exact (handle?_start hq).1

theorem mem_holders (thread : Option String) (ms : List (Move α ε)) (x : Exchange) (q : Place) :
    q ∈ holders (history thread ms (start x)) ↔ (run thread ms (start x)).Holds q :=
  mem_foldl_holdersAfter thread (holds_start x) ms q

theorem Sound.dispatcher_of_takesHold (hs : f.Sound n)
    (h : Move.takesHold? (m, (f.apply thread m).1) = some q) : f.session.dispatcher = true := by
  have hcode : ∀ (i : Nat) (b : Buffer), m = .finish i (.ok b) → f.session.dispatcher = true := by
    rintro i b rfl
    change Move.takesHold? (_, (f.finish thread i (.ok b)).1) = _ at h
    unfold Floor.finish at h
    split at h
    · cases h
    · rename_i r hr
      cases r with
      | async | stream => exact hs.calls _ _ (handle?_running hr) rfl
      | sync | callback => cases h
  unfold Move.takesHold? at h
  split at h
  · rename_i heq
    exact hcode _ _ (Prod.mk.inj heq).1
  · rename_i heq
    exact hcode _ _ (Prod.mk.inj heq).1
  · cases h

/-- Once nothing holds the exchange, nothing ever does. -/
theorem Sound.stays_gone (hs : f.Sound n) (hgone : f.exchange.isGone = true)
    (hs' : (f.apply thread m).2.Sound n) : (f.apply thread m).2.exchange.isGone = true := by
  have hnone : ¬ ∃ q, f.Holds q := by
    rw [← hs.alive_iff, hgone]
    exact Bool.noConfusion
  rw [← Bool.not_eq_false, hs'.alive_iff]
  rintro ⟨q, hq⟩
  rcases (apply_accounts thread m q).1 hq with ⟨hold, -⟩ | hnew
  · exact hnone ⟨q, hold⟩
  · exact hnone ⟨_, holds_dispatcher (hs.dispatcher_of_takesHold hnew)⟩

end Floor

end CallExchange
