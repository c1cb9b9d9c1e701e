import CallExchange.Proofs.Floor.Holders
import CallExchange.Proofs.Floor.Shut

set_option autoImplicit false

/-!
# How long an exchange lives

An exchange is there as long as the dispatcher handle, a result whose entry did not abort or a
stream that has not ended is held, and no port or broadcast port or single handle adds to that. The
move by which the last of these lets go tears it down, and from then on every handle on the other
side is dead.
-/

namespace CallExchange

variable {α ε : Type}

namespace Floor

variable {f g : Floor α ε} {m : Move α ε} {a : Answer α ε} {n : Nat} {p : PortId} {q : Place}
  {thread : Option String}

theorem letsGo?_uses (h : Move.letsGo? (m, a) = some q) :
    m.opensPort = false ∧ m.takesReverse = false ∧
      (q.shelf = .dispatcher ∨ q.shelf = .deferreds ∨ q.shelf = .streams) := by
  unfold Move.letsGo? at h
  split at h
  · rename_i hends
    unfold Move.endsHold at hends
    split at hends <;> try cases hends
    all_goals
      rename_i heq
      obtain ⟨rfl, -⟩ := Prod.mk.inj heq
      cases h
      exact ⟨rfl, rfl, by simp⟩
  · cases h

theorem stream_of_takes {h : Handle α ε} (hq : f.handle? q = some h) (ht : h.takes = true)
    (hs : q.shelf = .dispatcher ∨ q.shelf = .deferreds ∨ q.shelf = .streams) :
    q.shelf = .streams ∧ ∃ c, f.session.streams[q.index]?.join = some c ∧ h = .stream c := by
  obtain ⟨s, i⟩ := q
  rcases hs with rfl | rfl | rfl
  · obtain ⟨-, rfl⟩ := dispatcher_of_handle? hq
    cases ht
  · rw [handle?_eq_map rfl, Option.map_eq_some_iff] at hq
    obtain ⟨d, -, rfl⟩ := hq
    cases ht
  · rw [handle?_eq_map rfl, Option.map_eq_some_iff] at hq
    obtain ⟨c, hc, rfl⟩ := hq
    exact ⟨rfl, c, hc, rfl⟩

theorem uses_own_inbox (h : Move.letsGo? (m, a) = some q) (hu : f.UsesInbox m p) :
    ∃ n c, m.place? = some ⟨.streams, n⟩ ∧ f.session.streams[n]?.join = some c ∧ c.port.id = p := by
  obtain ⟨-, hreverse, hshelf⟩ := letsGo?_uses h
  rcases hu with ⟨htakes, -⟩ | ⟨q', h', hq', hh', htakes, hport⟩
  · rw [hreverse] at htakes
    cases htakes
  · rw [Move.letsGo?_of_place? h] at hq'
    cases hq'
    obtain ⟨hstreams, c, hc, rfl⟩ := stream_of_takes hh' htakes hshelf
    obtain ⟨s, i⟩ := q
    cases hstreams
    exact ⟨i, c, Move.letsGo?_of_place? h, hc, Option.some.inj hport⟩

/-- Nothing can be posted any more from the other side, and handles there show that: as they are
used by anyone, by the entry that was given them, and by whoever kept them. -/
structure Deaf (thread : Option String) (g : Floor α ε) : Prop where
  gone : g.exchange.isGone = true
  isDead : ∀ p, g.exchange.isDead p = true
  deliver : ∀ p v,
    g.exchange.deliver p v = (.dropped, g.exchange.note (.droppedAfterTeardown p)) ∧
      (g.apply thread (.deliver p v)).1 = .reply (.delivery .dropped)
  own : ∀ bound p v, ∃ st, Stage.perform bound (some p) (.own v) g.session.stage =
    .returned (.delivery .dropped) st
  ownClosed : ∀ bound p, Stage.perform bound (some p) .ownClosed g.session.stage =
    .returned (.flag true) g.session.stage
  native : ∀ bound own n p v, g.session.stage.kept[n]? = some p →
    ∃ st, Stage.perform bound own (.native n v) g.session.stage = .returned (.delivery .dropped) st
  nativeClosed : ∀ bound own n p, g.session.stage.kept[n]? = some p →
    Stage.perform bound own (.nativeClosed n) g.session.stage =
      .returned (.flag true) g.session.stage

theorem post_of_gone (hgone : g.exchange.isGone = true) (p : PortId) (v : Value) :
    g.session.stage.on (g.exchange.deliver p v) .delivery = .returned (.delivery .dropped)
      (g.session.stage.put (g.exchange.note (.droppedAfterTeardown p))) := by
  rw [Exchange.deliver, if_pos hgone]
  rfl

theorem flag_of_gone (hgone : g.exchange.isGone = true) (p : PortId) :
    g.session.stage.answer (.flag (g.exchange.isDead p)) = .returned (.flag true) g.session.stage := by
  rw [Exchange.isDead, hgone]
  rfl

theorem deaf_of_gone (hgone : g.exchange.isGone = true) (thread : Option String) :
    g.Deaf thread where
  gone := hgone
  isDead p := by
    rw [Exchange.isDead, hgone]
    rfl
  deliver p v := by
    have hdeliver : g.exchange.deliver p v =
        (.dropped, g.exchange.note (.droppedAfterTeardown p)) := by
      rw [Exchange.deliver, if_pos hgone]
    refine ⟨hdeliver, ?_⟩
    change Answer.reply (.delivery (g.exchange.deliver p v).1) = _
    rw [hdeliver]
  own bound p v := ⟨_, post_of_gone hgone p v⟩
  ownClosed bound p := flag_of_gone hgone p
  native bound own n p v hp := by
    rw [Stage.perform, Stage.run, hp]
    exact ⟨_, post_of_gone hgone p v⟩
  nativeClosed bound own n p hp := by
    rw [Stage.perform, Stage.run, hp]
    exact flag_of_gone hgone p

theorem run_stays_gone (hs : f.Sound n) (hgone : f.exchange.isGone = true) (thread : Option String)
    (ms : List (Move α ε)) : (run thread ms f).exchange.isGone = true := by
  induction ms generalizing f with
  | nil => exact hgone
  | cons m ms ih =>
    obtain ⟨hs', -⟩ := hs.apply_shut (hs.consistent.gone_closed hgone) thread m
    exact ih hs' (hs.stays_gone hgone hs')

theorem alive_iff_holders (thread : Option String) (ms : List (Move α ε)) (x : Exchange)
    (hs : (run thread ms (start x)).Sound n) :
    (run thread ms (start x)).exchange.isGone = false ↔
      holders (history thread ms (start x)) ≠ [] := by
  rw [hs.alive_iff]
  constructor
  · rintro ⟨q, hq⟩
    exact List.ne_nil_of_mem ((mem_holders thread ms x q).2 hq)
  · intro hne
    obtain ⟨q, hq⟩ := List.exists_mem_of_ne_nil _ hne
    exact ⟨q, (mem_holders thread ms x q).1 hq⟩

/-- In every run that does not use up the numbers for ports, the exchange is there exactly as long
as something holds it. The move by which the last one lets go gives up whoever waits and closes
every inbox with what is in it, but for that of the stream that ends by it, if any; and whatever is
done afterwards, the other side can post nothing any more. -/
theorem run_lives_while_held {s : Settings} {x : Exchange} (hx : Exchange.create s = .ok x)
    (thread : Option String) (ms : List (Move α ε))
    (hfew : ms.countP Move.opensPort + 1 < PortId.supply) :
    let f := run thread ms (start x)
    let h := history thread ms (start x)
    (f.exchange.isGone = false ↔ holders h ≠ []) ∧
    ∀ m, let t := f.apply thread m
      holders h ≠ [] → holders (h ++ [(m, t.1)]) = [] →
        f.TornDown m t.2.exchange ∧ (∀ p, (t.2.exchange.inbox p).closed = true) ∧
        (∀ p, f.UsesInbox m p → ∃ n c, m.place? = some ⟨.streams, n⟩ ∧
          f.session.streams[n]?.join = some c ∧ c.port.id = p) ∧
        ∀ after, (run thread after t.2).Deaf thread := by
  intro f h
  have hstart : (start x : Floor α ε).Sound (ms.countP Move.opensPort + 0) := sound_start hx hfew
  have hs : f.Sound 0 := hstart.run thread
  refine ⟨alive_iff_holders thread ms x hs, ?_⟩
  intro m t hheld hleft
  obtain ⟨q, hq⟩ := List.exists_mem_of_ne_nil _ hheld
  have hlets : Move.letsGo? (m, t.1) = some q := by
    by_contra hne
    have hstill := mem_holdersAfter.2 (.inl ⟨hq, hne⟩)
    rw [← holders_concat, hleft] at hstill
    cases hstill
  obtain ⟨hopens, -, -⟩ := letsGo?_uses hlets
  have hs' : f.Sound (m.opensPort.toNat + 0) := by
    rw [hopens]
    exact hs
  have ht : t.2.Sound 0 := hs'.apply thread
  have hgone : t.2.exchange.isGone = true := by
    have hrun : run thread (ms ++ [m]) (start x) = t.2 := run_append thread ms [m] _
    have halive := alive_iff_holders thread (ms ++ [m]) x (hrun ▸ ht)
    rw [history_append, hrun] at halive
    rw [← Bool.not_eq_false, halive]
    exact not_not.2 hleft
  have hclosed := ht.consistent.gone_closed hgone
  have hshut : t.2.exchange.Shut := ⟨ht.consistent, hclosed⟩
  exact ⟨tornDown_apply hs' thread hclosed, hshut.inbox_closed, fun p => uses_own_inbox hlets,
    fun after => deaf_of_gone (run_stays_gone ht hgone thread after) thread⟩

/-- A port that is kept, a broadcast port with a delivery and a result. The result still holds the
exchange when the dispatcher handle is gone; once it is given up the others are left without one. -/
theorem run_lives_while_held_by_result : ∃ x, Exchange.create .standard = .ok x ∧
    let codec : Codec Unit Unit :=
      ⟨fun _ => .ok (.success ()), fun _ => false, fun _ => .ok (.malformed "")⟩
    let ms : List (Move Unit Unit) :=
      [.step .openSingle rfl, .step (.openBroadcast "b") rfl, .deliver ⟨2⟩ (.bool true),
        .beginAsync "task" codec, .finish 0 (.ok ⟨[]⟩), .step .dropDispatcher rfl]
    let m : Move Unit Unit := .step (.dropDeferred 0) rfl
    let f := run none ms (start x)
    let t := f.apply none m
    ms.countP Move.opensPort + 1 < PortId.supply ∧
      holders (history none ms (start x)) = [⟨.deferreds, 0⟩] ∧ f.exchange.isGone = false ∧
      t.2.exchange.isGone = true ∧ t.2.exchange.slot 0 = .abandoned ∧
      t.2.exchange.inbox ⟨2⟩ = ⟨[.bool true], true⟩ ∧ t.2.exchange.isDead ⟨1⟩ = true ∧
      (t.2.apply none (.deliver ⟨1⟩ .null)).1 = .reply (.delivery .dropped) := by
  obtain ⟨x, hx⟩ : ∃ x, Exchange.create .standard = .ok x := ⟨_, rfl⟩
  refine ⟨x, hx, ?_⟩
  intro codec ms m f t
  have hfew : ms.countP Move.opensPort + 1 < PortId.supply := by decide
  have hheld : holders (history none ms (start x)) = [⟨.deferreds, 0⟩] := by
    cases hx
    rfl
  have hleft : holders (history none ms (start x) ++ [(m, t.1)]) = [] := by
    cases hx
    rfl
  have hopen : (f.exchange.slot 0).isSettled = false := by
    cases hx
    rfl
  have hqueue : (f.exchange.inbox ⟨2⟩).queue = [.bool true] := by
    cases hx
    rfl
  have hstreams : f.session.streams = [] := by
    cases hx
    rfl
  obtain ⟨halive, hlast⟩ := run_lives_while_held hx none ms hfew
  have hne : holders (history none ms (start x)) ≠ [] := by
    rw [hheld]
    exact List.cons_ne_nil _ _
  obtain ⟨htorn, -, huses, hafter⟩ := hlast m hne hleft
  have hdeaf : t.2.Deaf none := hafter []
  have hunused : ¬ f.UsesInbox m ⟨2⟩ := by
    intro hu
    obtain ⟨n, c, -, hc, -⟩ := huses _ hu
    rw [hstreams] at hc
    cases hc
  refine ⟨hfew, hheld, halive.2 hne, hdeaf.gone, htorn.abandoned 0 hopen, ?_, hdeaf.isDead _,
    (hdeaf.deliver _ _).2⟩
  rw [htorn.inbox ⟨2⟩ hunused, hqueue]

end Floor

end CallExchange
