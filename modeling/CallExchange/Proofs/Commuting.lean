import CallExchange.Proofs.Floor.Watch
import CallExchange.Proofs.Notifiers
import CallExchange.Proofs.Routing

set_option autoImplicit false

/-!
# Posts to different ports

Whatever a post does to an exchange is decided by what is open on its own port. So posts to two
different ports may be made in either order: each goes where it would have gone, and what is left is
the same but for the order of what was reported and who was woken. An interleaving of posts can be
turned into any other that keeps the order on each port by swapping neighbours.
-/

namespace CallExchange

variable {α ε : Type}

/-- The same entries, and those with the same key in the same order. -/
inductive Reordered {κ β : Type} : List (κ × β) → List (κ × β) → Prop where
  | nil : Reordered [] []
  | cons {es es' : List (κ × β)} (e : κ × β) (h : Reordered es es') : Reordered (e :: es) (e :: es')
  | swap {es es' : List (κ × β)} (e e' : κ × β) (hne : e.1 ≠ e'.1) (h : Reordered es es') :
      Reordered (e :: e' :: es) (e' :: e :: es')
  | trans {es es' es'' : List (κ × β)} (h : Reordered es es') (h' : Reordered es' es'') :
      Reordered es es''

namespace Reordered

variable {κ β : Type}

theorem refl (es : List (κ × β)) : Reordered es es := by
  induction es with
  | nil => exact .nil
  | cons e es ih => exact .cons e ih

theorem to_front (e : κ × β) {before : List (κ × β)} (h : ∀ a ∈ before, a.1 ≠ e.1)
    (after : List (κ × β)) : Reordered (e :: (before ++ after)) (before ++ e :: after) := by
  induction before with
  | nil => exact refl _
  | cons a before ih =>
    have hne : e.1 ≠ a.1 := (h a List.mem_cons_self).symm
    exact .trans (.swap e a hne (refl _)) (.cons a (ih fun b hb => h b (List.mem_cons_of_mem a hb)))

/-- Lists that agree on every key are interleavings of the same lists. -/
theorem of_agree [DecidableEq κ] {es es' : List (κ × β)}
    (h : ∀ k, es.filter (fun e => e.1 = k) = es'.filter (fun e => e.1 = k)) : Reordered es es' := by
  induction es generalizing es' with
  | nil =>
    cases es' with
    | nil => exact .nil
    | cons e es' =>
      have hnone := h e.1
      rw [List.filter_nil, List.filter_cons_of_pos (by simp)] at hnone
      cases hnone
  | cons e es ih =>
    have hfirst := (h e.1).symm
    rw [List.filter_cons_of_pos (by simp), List.filter_eq_cons_iff] at hfirst
    obtain ⟨before, after, rfl, hbefore, -, hafter⟩ := hfirst
    have hne : ∀ a ∈ before, a.1 ≠ e.1 := fun a ha => by simpa using hbefore a ha
    refine .trans (.cons e (ih fun k => ?_)) (to_front e hne after)
    have hk := h k
    by_cases he : e.1 = k
    · subst he
      have hnone : before.filter (fun a => a.1 = e.1) = [] :=
        List.filter_eq_nil_iff.2 fun a ha => by simpa using hne a ha
      rw [List.filter_append, hafter, hnone]
      rfl
    · rw [List.filter_cons_of_neg (by simpa using he), List.filter_append,
        List.filter_cons_of_neg (by simpa using he), ← List.filter_append] at hk
      exact hk

end Reordered

namespace Pending

def fill (p : PortId) (k : Ticket) (v : Value) (r : Pending) : Pending :=
  { (r.setSlot k ((r.slot k).complete v).1) with waiting := r.waiting.filter fun e => !(e.1 == p) }

def after (p : PortId) (v : Value) (r : Pending) : Pending := ((r.resolve? p v).map Prod.snd).getD r

def wakes (p : PortId) (v : Value) (r : Pending) : List Waker :=
  ((r.resolve? p v).bind Prod.fst).toList

variable {r : Pending} {p q : PortId} {j k : Ticket} {v w : Value}

theorem resolve?_eq (r : Pending) (p : PortId) (v : Value) :
    r.resolve? p v = (r.ticket? p).map fun k => (((r.slot k).complete v).2, r.fill p k v) := rfl

theorem after_of_none (h : r.ticket? p = none) (v : Value) : r.after p v = r := by
  rw [after, resolve?_eq, h]
  rfl

theorem after_of_some (h : r.ticket? p = some k) (v : Value) : r.after p v = r.fill p k v := by
  rw [after, resolve?_eq, h]
  rfl

theorem wakes_of_none (h : r.ticket? p = none) (v : Value) : r.wakes p v = [] := by
  rw [wakes, resolve?_eq, h]
  rfl

theorem wakes_of_some (h : r.ticket? p = some k) (v : Value) :
    r.wakes p v = ((r.slot k).complete v).2.toList := by
  rw [wakes, resolve?_eq, h]
  rfl

theorem ticket?_fill (hne : q ≠ p) : (r.fill p k v).ticket? q = r.ticket? q :=
  (Lookup.lookup_without r.waiting p q).trans (if_neg hne)

theorem slot_fill (hne : j ≠ k) : (r.fill p k v).slot j = r.slot j := r.slot_setSlot_ne _ hne

theorem fill_comm (hne : j ≠ k) : (r.fill p j v).fill q k w = (r.fill q k w).fill p j v := by
  have hk : (r.fill p j v).slot k = r.slot k := slot_fill hne.symm
  have hj : (r.fill q k w).slot j = r.slot j := slot_fill hne
  rw [fill, hk, fill.eq_def p j v (r.fill q k w), hj]
  simp only [fill, setSlot, List.filter_filter, Bool.and_comm]
  rw [List.set_comm _ _ hne]

theorem resolve?_after (hr : r.Sound) (hne : q ≠ p) (v w : Value) :
    (r.after p v).resolve? q w = (r.resolve? q w).map fun a => (a.1, a.2.after p v) := by
  rw [resolve?_eq r q w]
  cases hp : r.ticket? p with
  | none =>
    rw [after_of_none hp, resolve?_eq]
    cases hq : r.ticket? q with
    | none => rfl
    | some k =>
      have hleft : (r.fill q k w).ticket? p = none := by rw [ticket?_fill hne.symm, hp]
      rw [Option.map_some, Option.map_some, after_of_none hleft]
  | some j =>
    rw [after_of_some hp, resolve?_eq, ticket?_fill hne]
    cases hq : r.ticket? q with
    | none => rfl
    | some k =>
      have hjk : j ≠ k := by
        rintro rfl
        exact hne (hr.tickets_inj q p j hq hp)
      have hleft : (r.fill q k w).ticket? p = some j := by rw [ticket?_fill hne.symm, hp]
      rw [Option.map_some, Option.map_some, Option.map_some, after_of_some hleft,
        slot_fill hjk.symm, fill_comm hjk]

theorem after_comm (hr : r.Sound) (hne : p ≠ q) (v w : Value) :
    (r.after p v).after q w = (r.after q w).after p v := by
  rw [after, resolve?_after hr hne.symm]
  cases hq : r.ticket? q with
  | none =>
    rw [after_of_none hq, resolve?_eq, hq]
    rfl
  | some k =>
    rw [after_of_some hq, resolve?_eq, hq]
    rfl

theorem wakes_after (hr : r.Sound) (hne : q ≠ p) (v w : Value) :
    (r.after p v).wakes q w = r.wakes q w := by
  rw [wakes, resolve?_after hr hne, wakes]
  cases r.resolve? q w <;> rfl

end Pending

namespace Notifier

def complaints (n : Notifier) : List Notice :=
  match n.notify with
  | .ok _ => []
  | .error f => [.notifierFailed f]

theorem complaints_eq (n : Notifier) :
    n.complaints = if n.fails then [.notifierFailed (.os 9)] else [] := by
  rw [complaints, notify_eq]
  cases n.fails with
  | true => rfl
  | false => cases n.hasDescriptor && decide (n.count = fullCount) <;> rfl

theorem complaints_notified (n : Notifier) : n.notified.2.complaints = n.complaints := by
  rw [complaints_eq, complaints_eq, fails_notified]

end Notifier

namespace Counters

theorem record_comm (c : Counters) (e e' : Event) :
    (c.record e).record e' = (c.record e').record e := by
  cases e <;> cases e' <;> rfl

end Counters

namespace Exchange

variable {x y z : Exchange} {p q : PortId} {v w : Value} {d d' : Delivery}

theorem ring_eq (x : Exchange) : x.ring = { x with
    notifier := x.notifier.notified.2, journal := x.journal ++ x.notifier.complaints } := by
  unfold ring Notifier.notified Notifier.complaints
  cases x.notifier.notify with
  | ok n => simp
  | error f => rfl

def notices (x : Exchange) (p : PortId) : Delivery → List Notice
  | .dropped =>
    [if x.isIssued p then
      .dropped p (if x.closed then .exchangeClosed else .noLivePort) x.settings.warnOnDropped
    else .neverIssued p]
  | _ => x.notifier.complaints

def afterPost (x : Exchange) (p : PortId) (v : Value) (d : Delivery) : Exchange :=
  { x with
    pending := x.pending.after p v
    inboxes := if d = .queued then (x.setInbox p ((x.inbox p).push v).2).inboxes else x.inboxes
    notifier := if d = .dropped then x.notifier else x.notifier.notified.2
    counters := x.counters.record (Delivery.event d)
    journal := x.journal ++ x.notices p d
    woken := x.woken ++ x.pending.wakes p v }

theorem drop_eq (hticket : x.ticket? p = none) (v : Value) :
    x.drop p (if x.closed then .exchangeClosed else .noLivePort) = x.afterPost p v .dropped := by
  have hafter : x.pending.after p v = x.pending := Pending.after_of_none hticket v
  have hwakes : x.pending.wakes p v = [] := Pending.wakes_of_none hticket v
  rw [afterPost, hafter, hwakes, List.append_nil, notices]
  unfold drop
  dsimp only
  change (if x.isIssued p then _ else _) = _
  split <;> rfl

theorem post_eq (h : x.Consistent) (p : PortId) (v : Value) :
    (x.post p v).2 = x.afterPost p v (x.post p v).1 := by
  unfold post
  by_cases hx : x.closed = true
  · rw [if_pos hx]
    have hdrop := drop_eq (h.closed_tickets hx p) v
    rw [if_pos hx] at hdrop
    exact hdrop
  · rw [if_neg hx]
    cases ht : x.pending.ticket? p with
    | some k =>
      rw [Pending.resolve?_eq, ht, afterPost, Pending.after_of_some ht, Pending.wakes_of_some ht]
      exact ring_eq _
    | none =>
      rw [Pending.resolve?_eq, ht, Option.map_none]
      cases hn : x.portName? p with
      | none =>
        have hdrop := drop_eq ht v
        rw [if_neg hx] at hdrop
        simp only [enqueue?, hn]
        exact hdrop
      | some name =>
        have hopen : (x.inbox p).closed = false := by
          have hiff := h.open_iff p
          rw [hn] at hiff
          simpa using hiff.symm
        have hpush : (x.inbox p).push v = (true, ((x.inbox p).push v).2) := by
          simp [Inbox.push, hopen]
        simp only [enqueue?, hn]
        rw [hpush, afterPost, Pending.after_of_none ht, Pending.wakes_of_none ht, List.append_nil]
        exact ring_eq _

/-- Exchanges that differ in nothing but the order of what was reported and who was woken. -/
structure Alike (x y : Exchange) : Prop where
  rest : y = { x with journal := y.journal, woken := y.woken }
  journal : x.journal.Perm y.journal
  woken : x.woken.Perm y.woken

theorem Alike.refl (x : Exchange) : Alike x x := ⟨rfl, .refl _, .refl _⟩

theorem Alike.trans (h : Alike x y) (h' : Alike y z) : Alike x z := by
  obtain ⟨hrest, hj, hw⟩ := h
  obtain ⟨hrest', hj', hw'⟩ := h'
  refine ⟨?_, hj.trans hj', hw.trans hw'⟩
  rw [hrest', hrest]

theorem Alike.post (h : Alike x y) (hx : x.Consistent) (p : PortId) (v : Value) :
    (x.post p v).1 = (y.post p v).1 ∧ Alike (x.post p v).2 (y.post p v).2 := by
  obtain ⟨hrest, hj, hw⟩ := h
  generalize y.journal = j at hrest hj
  generalize y.woken = ws at hrest hw
  subst hrest
  have hy : Consistent { x with journal := j, woken := ws } := hx.congr rfl rfl rfl rfl rfl id
  have hfst : (x.post p v).1 = (({ x with journal := j, woken := ws } : Exchange).post p v).1 := by
    rw [hx.post_fst, hy.post_fst]
    rfl
  refine ⟨hfst, ?_⟩
  rw [post_eq hx, post_eq hy, ← hfst]
  exact ⟨rfl, hj.append_right _, hw.append_right _⟩

theorem inbox_afterPost (hne : q ≠ p) : (x.afterPost p v d).inbox q = x.inbox q := by
  cases d with
  | queued => exact x.inbox_setInbox_ne _ hne
  | completed | dropped => rfl

theorem notices_afterPost (q : PortId) (d' : Delivery) :
    (x.afterPost p v d).notices q d' = x.notices q d' := by
  have hcomplaints : (x.afterPost p v d).notifier.complaints = x.notifier.complaints := by
    cases d with
    | dropped => rfl
    | completed | queued => exact x.notifier.complaints_notified
  cases d' with
  | dropped => rfl
  | completed | queued => exact hcomplaints

theorem setInbox_comm (hne : p ≠ q) (b c : Inbox) :
    ((x.setInbox p b).setInbox q c).inboxes = ((x.setInbox q c).setInbox p b).inboxes := by
  simp only [setInbox, List.map_map]
  refine List.map_congr_left fun e _ => ?_
  by_cases hp : e.1 = p
  · simp [hp, hne]
  · by_cases hq : e.1 = q <;> simp [hp, hq, hne.symm]

theorem inboxes_comm (hne : p ≠ q) (v w : Value) (d d' : Delivery) :
    ((x.afterPost p v d).afterPost q w d').inboxes =
      ((x.afterPost q w d').afterPost p v d).inboxes := by
  have hq : (x.afterPost p v d).inbox q = x.inbox q := inbox_afterPost hne.symm
  have hp : (x.afterPost q w d').inbox p = x.inbox p := inbox_afterPost hne
  by_cases hd : d = .queued
  · by_cases hd' : d' = .queued
    · subst hd hd'
      change ((x.afterPost p v _).setInbox q (((x.afterPost p v _).inbox q).push w).2).inboxes =
        ((x.afterPost q w _).setInbox p (((x.afterPost q w _).inbox p).push v).2).inboxes
      rw [hq, hp]
      exact setInbox_comm hne _ _
    · cases d' with
      | queued => exact absurd rfl hd'
      | completed | dropped => rfl
  · cases d with
    | queued => exact absurd rfl hd
    | completed | dropped => rfl

theorem afterPost_comm (hr : x.pending.Sound) (hne : p ≠ q) (v w : Value) (d d' : Delivery) :
    Alike ((x.afterPost p v d).afterPost q w d') ((x.afterPost q w d').afterPost p v d) := by
  have hpending := Pending.after_comm hr hne v w
  have hinboxes := inboxes_comm (x := x) hne v w d d'
  have hcounters := x.counters.record_comm (Delivery.event d) (Delivery.event d')
  have hnotifier : ((x.afterPost p v d).afterPost q w d').notifier =
      ((x.afterPost q w d').afterPost p v d).notifier := by
    cases d <;> cases d' <;> rfl
  refine ⟨?_, ?_, ?_⟩
  · unfold afterPost at hpending hinboxes hnotifier ⊢
    rw [Exchange.mk.injEq]
    exact ⟨rfl, rfl, hpending.symm, rfl, hinboxes.symm, rfl, rfl, hnotifier.symm, hcounters.symm,
      rfl, rfl, rfl, rfl, rfl⟩
  · change ((x.journal ++ _) ++ (x.afterPost p v d).notices q d').Perm
      ((x.journal ++ _) ++ (x.afterPost q w d').notices p d)
    rw [notices_afterPost, notices_afterPost, List.append_assoc, List.append_assoc]
    exact List.perm_append_comm.append_left _
  · change ((x.woken ++ _) ++ (x.pending.after p v).wakes q w).Perm
      ((x.woken ++ _) ++ (x.pending.after q w).wakes p v)
    rw [Pending.wakes_after hr hne.symm, Pending.wakes_after hr hne, List.append_assoc,
      List.append_assoc]
    exact List.perm_append_comm.append_left _

theorem Consistent.post (h : x.Consistent) (p : PortId) (v : Value) : (x.post p v).2.Consistent :=
  (x.post_posted p v).consistent h

theorem post_fst_after (h : x.Consistent) (hne : q ≠ p) (v w : Value) :
    ((x.post p v).2.post q w).1 = (x.post q w).1 := by
  have hsame := (x.post_posted p v).samePort hne.symm
  rw [(h.post p v).post_fst, h.post_fst, hsame.ticket, hsame.name]

theorem post_comm (h : x.Consistent) (hne : p ≠ q) (v w : Value) :
    Alike ((x.post p v).2.post q w).2 ((x.post q w).2.post p v).2 := by
  rw [post_eq (h.post p v), post_eq (h.post q w), post_fst_after h hne.symm, post_fst_after h hne,
    post_eq h p v, post_eq h q w]
  exact afterPost_comm h.pending hne v w _ _

def posts : List (PortId × Value) → Exchange → Exchange
  | [], x => x
  | e :: es, x => posts es (x.post e.1 e.2).2

def deliveries (p : PortId) : List (PortId × Value) → Exchange → List Delivery
  | [], _ => []
  | e :: es, x =>
    if e.1 = p then (x.post e.1 e.2).1 :: deliveries p es (x.post e.1 e.2).2
    else deliveries p es (x.post e.1 e.2).2

variable {es es' : List (PortId × Value)}

theorem deliveries_cons {e : PortId × Value}
    (hd : (x.post e.1 e.2).1 = (y.post e.1 e.2).1)
    (hrest : deliveries p es (x.post e.1 e.2).2 = deliveries p es' (y.post e.1 e.2).2) :
    deliveries p (e :: es) x = deliveries p (e :: es') y := by
  rw [deliveries, deliveries, hd, hrest]

/-- Interleavings of the same posts have the same outcomes and leave the same behind. -/
theorem posts_reordered (h : Reordered es es') (hx : x.Consistent) (hxy : Alike x y) :
    (∀ p, deliveries p es x = deliveries p es' y) ∧ Alike (posts es x) (posts es' y) := by
  induction h generalizing x y with
  | nil => exact ⟨fun _ => rfl, hxy⟩
  | cons e h ih =>
    obtain ⟨hd, hnext⟩ := hxy.post hx e.1 e.2
    obtain ⟨hrest, hlast⟩ := ih (hx.post e.1 e.2) hnext
    exact ⟨fun p => deliveries_cons hd (hrest p), hlast⟩
  | swap e e' hne h ih =>
    -- `y` takes the first two posts in the order of the second list, and `x` is led to the same.
    obtain ⟨hd', hother⟩ := hxy.post hx e'.1 e'.2
    obtain ⟨hd, hboth⟩ := hother.post (hx.post e'.1 e'.2) e.1 e.2
    rw [post_fst_after hx hne] at hd
    obtain ⟨hrest, hlast⟩ := ih ((hx.post e.1 e.2).post e'.1 e'.2)
      ((post_comm hx hne e.2 e'.2).trans hboth)
    refine ⟨fun p => ?_, hlast⟩
    have hafter := post_fst_after hx hne.symm e.2 e'.2
    by_cases he : e.1 = p
    · have he' : e'.1 ≠ p := fun h => hne (he.trans h.symm)
      simp only [deliveries, if_pos he, if_neg he', hd, hrest p]
    · simp only [deliveries, if_neg he, hafter, hd', hrest p]
  | trans h h' ih ih' =>
    obtain ⟨hfirst, hmid⟩ := ih hx (.refl x)
    obtain ⟨hsecond, hlast⟩ := ih' hx hxy
    exact ⟨fun p => (hfirst p).trans (hsecond p), hmid.trans hlast⟩

end Exchange

namespace Floor

variable {f : Floor α ε} {ps : List (Move α ε)}

def answersTo (p : PortId) (h : List (Move α ε × Answer α ε)) : List (Answer α ε) :=
  h.filterMap fun e => (e.1.postTo? p).map fun _ => e.2

structure Alike (f g : Floor α ε) : Prop where
  rest : g = f.put g.exchange
  exchange : f.exchange.Alike g.exchange

def AllPosts (ps : List (Move α ε)) : Prop := ∀ m ∈ ps, m.post?.isSome = true

theorem run_posts (thread : Option String) (hps : AllPosts ps) (hlive : f.exchange.isGone = false) :
    run thread ps f = f.put (f.exchange.posts (ps.filterMap Move.post?)) ∧
      ∀ p, answersTo p (history thread ps f) =
        (f.exchange.deliveries p (ps.filterMap Move.post?)).map fun d => .reply (.delivery d) := by
  induction ps generalizing f with
  | nil => exact ⟨rfl, fun _ => rfl⟩
  | cons m ps ih =>
    obtain ⟨⟨p, v⟩, hpost⟩ := Option.isSome_iff_exists.1 (hps m List.mem_cons_self)
    have hnext := apply_post thread hpost hlive
    have hlive' : (f.put (f.exchange.post p v).2).exchange.isGone = false := by
      change (f.exchange.post p v).2.isGone = false
      rw [Exchange.isGone, f.exchange.owners_post]
      exact hlive
    obtain ⟨hrun, hanswers⟩ := ih (fun m' hm' => hps m' (List.mem_cons_of_mem m hm')) hlive'
    rw [List.filterMap_cons_some hpost]
    refine ⟨?_, fun q => ?_⟩
    · rw [run, List.foldl_cons, hnext]
      exact hrun
    · have hq := hanswers q
      rw [history, hnext, Exchange.deliveries, answersTo, List.filterMap_cons, Move.postTo?, hpost]
      by_cases hpq : p = q
      · simp only [Option.bind_some, if_pos hpq, Option.map_some, List.map_cons]
        exact congrArg _ hq
      · simp only [Option.bind_some, if_neg hpq, Option.map_none]
        exact hq

theorem filter_posts (ps : List (Move α ε)) (p : PortId) :
    (ps.filterMap Move.post?).filter (fun e => e.1 = p) =
      (ps.filterMap (Move.postTo? p)).map fun v => (p, v) := by
  induction ps with
  | nil => rfl
  | cons m ps ih =>
    cases hpost : m.post? with
    | none =>
      have hto : m.postTo? p = none := by rw [Move.postTo?, hpost, Option.bind_none]
      rw [List.filterMap_cons_none hpost, List.filterMap_cons_none hto, ih]
    | some e =>
      rw [List.filterMap_cons_some hpost]
      by_cases hp : e.1 = p
      · have hto : m.postTo? p = some e.2 := by rw [Move.postTo?, hpost, Option.bind_some, if_pos hp]
        rw [List.filterMap_cons_some hto, List.filter_cons_of_pos (by simpa using hp), ih,
          List.map_cons, ← hp]
      · have hto : m.postTo? p = none := by rw [Move.postTo?, hpost, Option.bind_some, if_neg hp]
        rw [List.filterMap_cons_none hto, List.filter_cons_of_neg (by simpa using hp), ih]

/-- In every state of a live exchange, a family of posts made in two orders that agree on each
single port: each post has the same outcome in both, and what they leave is the same but for the
order of what was reported and who was woken. -/
theorem run_posts_commute {s : Settings} {x : Exchange} (hx : Exchange.create s = .ok x)
    (thread : Option String) (ms : List (Move α ε))
    (hfew : ms.countP Move.opensPort + 1 < PortId.supply)
    (hlive : (run thread ms (start x)).exchange.isGone = false)
    (ps qs : List (Move α ε)) (hps : AllPosts ps) (hqs : AllPosts qs)
    (hsame : ∀ p, ps.filterMap (Move.postTo? p) = qs.filterMap (Move.postTo? p)) :
    let f := run thread ms (start x)
    (∀ p, ∃ ds : List Delivery,
      answersTo p (history thread ps f) = ds.map (fun d => .reply (.delivery d)) ∧
      answersTo p (history thread qs f) = ds.map (fun d => .reply (.delivery d))) ∧
    (run thread ps f).Alike (run thread qs f) := by
  intro f
  have hs : (start x : Floor α ε).Sound (ms.countP Move.opensPort + 0) := sound_start hx hfew
  have hagree : ∀ p, (ps.filterMap Move.post?).filter (fun e => e.1 = p) =
      (qs.filterMap Move.post?).filter (fun e => e.1 = p) := by
    intro p
    rw [filter_posts, filter_posts, hsame]
  obtain ⟨hdeliveries, halike⟩ :=
    Exchange.posts_reordered (.of_agree hagree) (hs.run thread).consistent (.refl f.exchange)
  obtain ⟨hrun, hanswers⟩ := run_posts thread hps hlive
  obtain ⟨hrun', hanswers'⟩ := run_posts thread hqs hlive
  refine ⟨fun p => ⟨_, hanswers p, ?_⟩, ?_⟩
  · rw [hanswers' p, hdeliveries p]
  · rw [hrun, hrun']
    exact ⟨rfl, halike⟩

/-- Posts to a pending call, to a broadcast port, to the port for reverse calls, to a closed port
and to one that was never opened, in two orders. -/
theorem run_posts_commute_of_each_kind : ∃ x, Exchange.create .standard = .ok x ∧
    let ms : List (Move Unit Unit) := [.step .openSingle rfl, .step (.openBroadcast "task") rfl,
      .step .openSingle rfl, .step (.act (.closePort ⟨3⟩)) rfl]
    let ps : List (Move Unit Unit) := [.deliver ⟨1⟩ (.bool true), .deliver ⟨2⟩ (.bool true),
      .deliver ⟨2⟩ .null, .step (.act (.reverse .null)) rfl, .deliver ⟨3⟩ .null, .deliver ⟨9⟩ .null,
      .deliver ⟨1⟩ .null]
    let qs : List (Move Unit Unit) := [.deliver ⟨9⟩ .null, .deliver ⟨2⟩ (.bool true),
      .deliver ⟨1⟩ (.bool true), .deliver ⟨1⟩ .null, .deliver ⟨3⟩ .null, .deliver ⟨2⟩ .null,
      .step (.act (.reverse .null)) rfl]
    let f := run none ms (start x)
    ms.countP Move.opensPort + 1 < PortId.supply ∧ f.exchange.isGone = false ∧
      f.exchange.pendingPorts = [⟨1⟩] ∧ f.exchange.broadcastPorts = [⟨0⟩, ⟨2⟩] ∧ AllPosts ps ∧
      AllPosts qs ∧ (∀ p, ps.filterMap (Move.postTo? p) = qs.filterMap (Move.postTo? p)) ∧
      (∀ p, ∃ ds : List Delivery,
        answersTo p (history none ps f) = ds.map (fun d => .reply (.delivery d)) ∧
        answersTo p (history none qs f) = ds.map (fun d => .reply (.delivery d))) ∧
      (run none ps f).Alike (run none qs f) := by
  obtain ⟨x, hx⟩ : ∃ x, Exchange.create .standard = .ok x := ⟨_, rfl⟩
  refine ⟨x, hx, ?_⟩
  intro ms ps qs f
  have hfew : ms.countP Move.opensPort + 1 < PortId.supply := by decide
  have hopen : f.exchange.isGone = false ∧ f.exchange.pendingPorts = [⟨1⟩] ∧
      f.exchange.broadcastPorts = [⟨0⟩, ⟨2⟩] := by
    cases hx
    exact ⟨rfl, rfl, rfl⟩
  obtain ⟨hlive, hpending, hbroadcast⟩ := hopen
  have hps : AllPosts ps := by simp [AllPosts, ps, Move.post?]
  have hqs : AllPosts qs := by simp [AllPosts, qs, Move.post?]
  have hsame : ∀ p, ps.filterMap (Move.postTo? p) = qs.filterMap (Move.postTo? p) := by
    intro p
    by_cases hp : p ∈ [Exchange.reversePort, ⟨1⟩, ⟨2⟩, ⟨3⟩, ⟨9⟩]
    · simp only [List.mem_cons, List.not_mem_nil, or_false] at hp
      rcases hp with rfl | rfl | rfl | rfl | rfl <;> rfl
    · simp only [List.mem_cons, List.not_mem_nil, or_false, not_or] at hp
      obtain ⟨h0, h1, h2, h3, h9⟩ := hp
      simp [ps, qs, Move.postTo?, Move.post?, Ne.symm h0, Ne.symm h1,
        Ne.symm h2, Ne.symm h3, Ne.symm h9]
  obtain ⟨hanswers, halike⟩ := run_posts_commute hx none ms hfew hlive ps qs hps hqs hsame
  exact ⟨hfew, hlive, hpending, hbroadcast, hps, hqs, hsame, hanswers, halike⟩

end Floor

end CallExchange
