import CallExchange.Proofs.Floor.Broadcasts

set_option autoImplicit false

/-!
# Broadcast ports, by the history

Which broadcast ports were opened and not retired yet, once as the history of a floor has it and
once as the exchange has it, and what is left of the ports of streams that ended.
-/

namespace CallExchange

variable {α ε : Type}

/-- What the history says of broadcast ports, the one for reverse calls aside. -/
structure BroadcastLedger where
  /-- Those that were opened and are not retired. -/
  opened : List PortId
  /-- On which each stream is that was handed out, in order. -/
  streams : List PortId
  handles : List PortId
  holders : List Place

namespace BroadcastLedger

def new : BroadcastLedger := ⟨[], [], [], [⟨.dispatcher, 0⟩]⟩

/-- Whether the stream on `p` ended: its end or an error was pulled, or it was closed or dropped. -/
def ends (l : BroadcastLedger) (p : PortId) (e : Move α ε × Answer α ε) : Bool :=
  match Move.letsGo? e with
  | some ⟨.streams, n⟩ => l.streams[n]? = some p
  | _ => false

def closes (l : BroadcastLedger) (p : PortId) (e : Move α ε × Answer α ε) : Bool :=
  (Move.closesHandle? e).bind (fun n => l.handles[n]?) = some p

/-- Whether what takes from `p` was through with it: the entry that was given it, its stream or its
broadcast handle. -/
def parts (l : BroadcastLedger) (p : PortId) (e : Move α ε × Answer α ε) : Bool :=
  Move.abortsStream p e || l.ends p e || l.closes p e

def isLeft (l : BroadcastLedger) (e : Move α ε × Answer α ε) : Bool :=
  (Floor.holdersAfter l.holders e).isEmpty

def retires (l : BroadcastLedger) (p : PortId) (e : Move α ε × Answer α ε) : Bool :=
  Move.tearsDown p e || l.parts p e || l.isLeft e

def after (l : BroadcastLedger) (e : Move α ε × Answer α ε) : BroadcastLedger where
  opened := l.opened.filter (fun p => !l.retires p e) ++ (Move.opensBroadcast? e).toList
  streams := l.streams ++ (Move.streamPort? e).toList
  handles := l.handles ++ (Move.handlePort? e).toList
  holders := Floor.holdersAfter l.holders e

end BroadcastLedger

def broadcastLedger (h : List (Move α ε × Answer α ε)) : BroadcastLedger :=
  h.foldl BroadcastLedger.after .new

/-- `names` has the name of each handle of a list, also of those that were given up. -/
structure Labels {γ β : Type} (label : γ → β) (names : List β) (l : List (Option γ)) : Prop where
  length : names.length = l.length
  name : ∀ (n : Nat) (a : γ), l[n]?.join = some a → names[n]? = some (label a)

namespace Labels

variable {γ β : Type} {label : γ → β} {names : List β} {l l' : List (Option γ)}
  {later : γ → γ → Prop}

theorem used (hl : Labels label names l) (hu : Used later l l') (hrefl : ∀ a, later a a)
    (hlabel : ∀ a a', later a a' → label a' = label a) : Labels label names l' where
  length := hl.length.trans hu.length_eq.symm
  name n a' ha' := by
    obtain ⟨a, ha, hlater⟩ := hu.origin hrefl ha'
    rw [hlabel a a' hlater]
    exact hl.name n a ha

theorem added (hl : Labels label names l) (a : γ) :
    Labels label (names ++ [label a]) (l ++ [some a]) where
  length := by rw [List.length_append, List.length_append, hl.length]; rfl
  name n b hb := by
    rcases Nat.lt_trichotomy n l.length with hlt | rfl | hgt
    · rw [List.getElem?_append_left hlt] at hb
      rw [List.getElem?_append_left (hl.length ▸ hlt)]
      exact hl.name n b hb
    · rw [List.getElem?_concat_length] at hb
      cases hb
      rw [← hl.length, List.getElem?_concat_length]
    · rw [List.getElem?_eq_none (by rw [List.length_append]; exact hgt)] at hb
      cases hb

theorem shelved (hl : Labels label names l) {new : Option β} (hrefl : ∀ a, later a a)
    (hlabel : ∀ a a', later a a' → label a' = label a)
    (h : new = none ∧ Used later l l' ∨ ∃ a, new = some (label a) ∧ l' = l ++ [some a]) :
    Labels label (names ++ new.toList) l' := by
  rcases h with ⟨rfl, hused⟩ | ⟨a, rfl, rfl⟩
  · rw [Option.toList_none, List.append_nil]
    exact hl.used hused hrefl hlabel
  · exact hl.added a

end Labels

namespace BroadcastLedger

open Floor

variable {f : Floor α ε} {m : Move α ε} {ms : List (Move α ε)} {a : Answer α ε} {n c : Nat}
  {p : PortId} {q : Place} {l : BroadcastLedger} {thread : Option String}

/-- The ledger says of a floor what is the case, and nothing is left on the port of a stream that
does not hold the exchange. -/
structure Tracks (l : BroadcastLedger) (f : Floor α ε) : Prop where
  fastened : f.Fastened
  inboxless : f.Inboxless
  opened : ∀ p, p ∈ l.opened ↔ p ≠ Exchange.reversePort ∧ (f.exchange.inbox p).closed = false
  nodup : l.opened.Nodup
  streams : Labels (fun st : Stream α ε => st.port.id) l.streams f.session.streams
  handles : Labels Exchange.Broadcast.id l.handles f.session.broadcasts
  holders : ∀ q, q ∈ l.holders ↔ f.Holds q
  ended : ∀ n p, l.streams[n]? = some p → ¬ f.Holds ⟨.streams, n⟩ → f.Sealed p

theorem ends_eq (hm : m.place? = some ⟨.streams, n⟩) (hp : l.streams[n]? = some p) :
    l.ends p (m, a) = (Move.letsGo? (m, a)).isSome := by
  unfold ends
  cases hlets : Move.letsGo? (m, a) with
  | none => rfl
  | some q =>
    have hplace := Move.letsGo?_of_place? hlets
    rw [hm] at hplace
    cases hplace
    exact decide_eq_true hp

theorem ends_of_place? (hm : ∀ n, m.place? ≠ some ⟨.streams, n⟩) : l.ends p (m, a) = false := by
  unfold ends
  split
  · rename_i n hlets
    exact absurd (Move.letsGo?_of_place? hlets) (hm n)
  · rfl

theorem closes_eq (hm : m.place? = some ⟨.broadcasts, n⟩) (hp : l.handles[n]? = some p) :
    l.closes p (m, a) = (Move.closesHandle? (m, a)).isSome := by
  unfold closes
  cases hcloses : Move.closesHandle? (m, a) with
  | none => rfl
  | some i =>
    have hplace := Move.place?_of_closesHandle? hcloses
    rw [hm] at hplace
    cases hplace
    exact decide_eq_true hp

theorem closes_of_place? (hm : ∀ n, m.place? ≠ some ⟨.broadcasts, n⟩) :
    l.closes p (m, a) = false := by
  unfold closes
  cases hcloses : Move.closesHandle? (m, a) with
  | none => rfl
  | some n => exact absurd (Move.place?_of_closesHandle? hcloses) (hm n)

/-- A use of what takes from an open port closes the port if and only if it is the last one. -/
theorem Tracks.closed_on (ht : l.Tracks f) (hs : f.Sound c)
    (hb : (f.exchange.inbox p).closed = false) (hm : m.place? = some q) (hq : f.TakesFrom p q) :
    ((f.apply thread m).2.exchange.inbox p).closed = l.parts p (m, (f.apply thread m).1) := by
  cases hq with
  | stream n st hst hp =>
    subst hp
    have hheld : f.Holds ⟨.streams, n⟩ := by
      by_contra hfree
      rw [(ht.ended n _ (ht.streams.name n st hst) hfree).inbox] at hb
      cases hb
    have hholds : st.holds = true := (holds_iff_of_stream hst).1 hheld
    have hparts : l.parts st.port.id (m, (f.apply thread m).1) =
        (Move.letsGo? (m, (f.apply thread m).1)).isSome := by
      rw [parts, Move.abortsStream_of_place? (by simp [hm]), closes_of_place? (by simp [hm]),
        ends_eq hm (ht.streams.name n st hst), Bool.false_or, Bool.or_false]
    have hlets : (f.apply thread m).2.Holds ⟨.streams, n⟩ ↔
        Move.letsGo? (m, (f.apply thread m).1) = none := holds_iff_letsGo? hheld hm
    cases streamUsed_apply hs hst hholds hm thread with
    | goesOn hstays hsame =>
      rw [hparts, hsame, hb, hlets.1 hstays]
      rfl
    | ended hfree hempty =>
      rw [hparts, hempty, Option.isSome_iff_ne_none.2 fun hnone => hfree (hlets.2 hnone)]
  | handle n b hopen hp =>
    subst hp
    have hparts : l.parts b.id (m, (f.apply thread m).1) =
        (Move.closesHandle? (m, (f.apply thread m).1)).isSome := by
      rw [parts, Move.abortsStream_of_place? (by simp [hm]), ends_of_place? (by simp [hm]),
        closes_eq hm (ht.handles.name n b hopen), Bool.false_or, Bool.false_or]
    rw [hparts]
    cases handleUsed_apply hs hopen hm thread with
    | goesOn hnone hsame =>
      rw [hsame, hb, hnone]
      rfl
    | closed hcloses hempty =>
      rw [hempty, hcloses]
      rfl
  | call i task codec port hr hp =>
    subst hp
    obtain ⟨ended, rfl⟩ := Move.uses_running hm
    rw [parts, ends_of_place? (by simp [hm]), closes_of_place? (by simp [hm]), Bool.or_false,
      Bool.or_false]
    cases ended with
    | ok buffer =>
      rw [finish_some thread _ hr]
      exact hb
    | error panic =>
      rw [(abort_stream hs hr thread panic).undone.inbox, finish_some thread _ hr]
      exact (decide_eq_true rfl).symm

theorem Tracks.takesFrom_of_parts (ht : l.Tracks f)
    (h : l.parts p (m, (f.apply thread m).1) = true) :
    ∃ q, m.place? = some q ∧ f.TakesFrom p q := by
  rw [parts, Bool.or_eq_true, Bool.or_eq_true] at h
  rcases h with (haborts | hends) | hcloses
  · cases m with
    | finish i ended =>
      cases hr : f.running[i]?.join with
      | none =>
        rw [finish_none thread ended hr] at haborts
        cases ended <;> cases haborts
      | some r =>
        rw [finish_some thread ended hr] at haborts
        cases r with
        | stream task codec port =>
          cases ended with
          | ok buffer => cases haborts
          | error panic => exact ⟨_, rfl, .call i task codec port hr (of_decide_eq_true haborts)⟩
        | async | sync | callback => cases ended <;> cases haborts
    | _ => cases haborts
  · unfold ends at hends
    split at hends
    · rename_i n hlets
      have hplace := Move.letsGo?_of_place? hlets
      cases hst : f.session.streams[n]?.join with
      | none =>
        rw [apply_noStream hplace hst, Move.letsGo?_noHandle] at hlets
        cases hlets
      | some st =>
        refine ⟨_, hplace, .stream n st hst ?_⟩
        have hname := ht.streams.name n st hst
        rw [of_decide_eq_true hends] at hname
        exact (Option.some.inj hname).symm
    · cases hends
  · unfold closes at hcloses
    obtain ⟨n, hn, hname⟩ := Option.bind_eq_some_iff.1 (of_decide_eq_true hcloses)
    have hplace := Move.place?_of_closesHandle? hn
    cases hb : f.session.broadcasts[n]?.join with
    | none =>
      rw [apply_noBroadcast hplace hb, Move.closesHandle?_noHandle] at hn
      cases hn
    | some b =>
      refine ⟨_, hplace, .handle n b hb ?_⟩
      exact Option.some.inj ((ht.handles.name n b hb).symm.trans hname)

theorem closed_of_gone (hs : f.Sound c) (hgone : f.exchange.isGone = true) :
    (f.exchange.inbox p).closed = true := by
  refine Bool.of_not_eq_false fun hb => ?_
  rw [hs.live_of_open hb] at hgone
  cases hgone

theorem closed_of_tearsDown (hs : f.Sound c) (hp : p ≠ Exchange.reversePort)
    (h : Move.tearsDown p (m, (f.apply thread m).1) = true) :
    ((f.apply thread m).2.exchange.inbox p).closed = true := by
  rw [Move.tearsDown, Bool.or_eq_true] at h
  rcases h with hshut | hclose
  · rw [(apply_shutsDown hs.consistent hshut).inbox]
    rfl
  · rw [apply_closes hclose, Exchange.inbox_closePort hs.consistent hp]
    rfl

/-- A move closes an open port if and only if the ledger has it so. -/
theorem Tracks.retires_eq (ht : l.Tracks f) (hs : f.Sound (m.opensPort.toNat + c))
    (hp : p ≠ Exchange.reversePort) (hb : (f.exchange.inbox p).closed = false)
    (thread : Option String) :
    l.retires p (m, (f.apply thread m).1) = ((f.apply thread m).2.exchange.inbox p).closed := by
  have hleft : l.isLeft (m, (f.apply thread m).1) = (f.apply thread m).2.exchange.isGone :=
    isEmpty_holdersAfter ht.holders (hs.apply thread)
  rw [retires, hleft]
  cases hgone : (f.apply thread m).2.exchange.isGone with
  | true => rw [closed_of_gone (hs.apply thread) hgone, Bool.or_true]
  | false =>
    rw [Bool.or_false]
    cases htear : Move.tearsDown p (m, (f.apply thread m).1) with
    | true => rw [closed_of_tearsDown hs hp htear, Bool.true_or]
    | false =>
      rw [Bool.false_or]
      by_cases hon : ∃ q, m.place? = some q ∧ f.TakesFrom p q
      · obtain ⟨q, hm, hq⟩ := hon
        exact (ht.closed_on hs hb hm hq).symm
      · have hparts : l.parts p (m, (f.apply thread m).1) = false :=
          Bool.eq_false_iff.2 fun h => hon (ht.takesFrom_of_parts h)
        rw [hparts]
        exact (open_aside hs ht.inboxless hp hb hgone htear
          fun q hm hq => hon ⟨q, hm, hq⟩).symm

theorem mem_opened_after (l : BroadcastLedger) (e : Move α ε × Answer α ε) (p : PortId) :
    p ∈ (l.after e).opened ↔
      (p ∈ l.opened ∧ l.retires p e = false) ∨ Move.opensBroadcast? e = some p := by
  simp [after]

theorem Tracks.opened_after (ht : l.Tracks f) (hs : f.Sound (m.opensPort.toNat + c))
    (thread : Option String) (p : PortId) :
    p ∈ (l.after (m, (f.apply thread m).1)).opened ↔
      p ≠ Exchange.reversePort ∧ ((f.apply thread m).2.exchange.inbox p).closed = false := by
  rw [mem_opened_after]
  constructor
  · rintro (⟨hmem, hkept⟩ | hnew)
    · obtain ⟨hp, hb⟩ := (ht.opened p).1 hmem
      rw [ht.retires_eq hs hp hb thread] at hkept
      exact ⟨hp, hkept⟩
    · obtain ⟨hnext, hb⟩ := opensBroadcast_apply hs hnew
      exact ⟨hnext ▸ hs.consistent.next_ne_reverse, hb⟩
  · rintro ⟨hp, hb⟩
    rcases open_apply hs hb with hold | hnew
    · refine .inl ⟨(ht.opened p).2 ⟨hp, hold⟩, ?_⟩
      rw [ht.retires_eq hs hp hold thread]
      exact hb
    · exact .inr hnew

theorem Tracks.nodup_after (ht : l.Tracks f) (hs : f.Sound (m.opensPort.toNat + c))
    (thread : Option String) : (l.after (m, (f.apply thread m).1)).opened.Nodup := by
  refine List.nodup_append.2 ⟨ht.nodup.filter _, ?_, ?_⟩
  · cases Move.opensBroadcast? (m, (f.apply thread m).1) with
    | none => exact .nil
    | some p => exact List.nodup_singleton p
  · rintro p hold _ hnew rfl
    rw [Option.mem_toList] at hnew
    -- what is open had its number before, and what is opened has the next one
    have hb := ((ht.opened _).1 (List.mem_of_mem_filter hold)).2
    have hissued := hs.consistent.inbox_issued _ (f.exchange.hasInbox_of_open _ hb)
    rw [(opensBroadcast_apply hs hnew).1] at hissued
    exact f.exchange.not_issued_next hissued

/-- A stream that is handed out and does not hold the exchange is that of an entry that aborted. -/
theorem sealed_of_handed (hs : f.Sound (m.opensPort.toNat + c))
    (h : Move.streamPort? (m, (f.apply thread m).1) = some p)
    (hfree : ¬ (f.apply thread m).2.Holds ⟨.streams, f.session.streams.length⟩) :
    (f.apply thread m).2.Sealed p := by
  cases m with
  | finish i ended =>
    cases hr : f.running[i]?.join with
    | none =>
      rw [finish_none thread ended hr] at h
      cases h
    | some r =>
      have hfinish := finish_some thread ended hr
      cases r with
      | stream task codec port =>
        cases ended with
        | ok buffer =>
          refine absurd (holds_stream.2 ⟨⟨port, codec, task, none, false⟩, ?_, rfl⟩) hfree
          rw [(finish_stream thread hr (.ok buffer)).2, List.getElem?_concat_length]
          rfl
        | error panic =>
          have hport : port.id = p := by
            rw [hfinish] at h
            exact Option.some.inj h
          have hundone := (abort_stream hs hr thread panic).undone
          rw [hport] at hundone
          have hissued := (hs.ports _ _ port.id (handle?_running hr) rfl).1
          exact ⟨issued_apply hs (hport ▸ hissued) thread, hundone.isOpen_eq_false, hundone.inbox⟩
      | async | sync | callback =>
        rw [hfinish] at h
        cases ended <;> cases h
  | _ => cases h

theorem Tracks.ended_after (ht : l.Tracks f) (hs : f.Sound (m.opensPort.toNat + c))
    (thread : Option String)
    (hp : (l.after (m, (f.apply thread m).1)).streams[n]? = some p)
    (hfree : ¬ (f.apply thread m).2.Holds ⟨.streams, n⟩) : (f.apply thread m).2.Sealed p := by
  change (l.streams ++ _)[n]? = some p at hp
  rcases Nat.lt_or_ge n l.streams.length with hold | hnew
  · rw [List.getElem?_append_left hold] at hp
    by_cases hheld : f.Holds ⟨.streams, n⟩
    · -- the stream lets go in this move, by a use of it
      have hm : m.place? = some ⟨.streams, n⟩ := by
        by_contra hm
        exact hfree ((apply_accounts thread m _).2
          (.inl ⟨hheld, fun hlets => hm (Move.letsGo?_of_place? hlets)⟩))
      obtain ⟨st, hst, hholds⟩ := holds_stream.1 hheld
      have hport : st.port.id = p := Option.some.inj ((ht.streams.name n st hst).symm.trans hp)
      have hinbox := hasInbox_apply hs thread (ht.fastened.inbox _ _ p (handle?_stream hst)
        (congrArg some hport) rfl)
      cases streamUsed_apply hs hst hholds hm thread with
      | goesOn hstays => exact absurd hstays hfree
      | ended _ hempty => exact sealed_of_inbox (hs.apply thread) hinbox (hport ▸ hempty)
    · exact (ht.ended n p hp hheld).apply hs thread
  · cases hport : Move.streamPort? (m, (f.apply thread m).1) with
    | none =>
      rw [hport, Option.toList_none, List.append_nil, List.getElem?_eq_none hnew] at hp
      cases hp
    | some p' =>
      rw [hport, Option.toList_some, List.getElem?_append_right hnew,
        List.getElem?_singleton] at hp
      split at hp
      · rename_i hlast
        cases hp
        have hn : n = f.session.streams.length := by
          rw [← ht.streams.length]
          omega
        rw [hn] at hfree
        exact sealed_of_handed hs hport hfree
      · cases hp

theorem Tracks.apply (ht : l.Tracks f) (hs : f.Sound (m.opensPort.toNat + c))
    (thread : Option String) :
    (l.after (m, (f.apply thread m).1)).Tracks (f.apply thread m).2 where
  fastened := ht.fastened.apply hs thread
  inboxless := ht.inboxless.apply hs thread
  opened := ht.opened_after hs thread
  nodup := ht.nodup_after hs thread
  streams := ht.streams.shelved Stream.Later.refl (fun _ _ h => congrArg _ h.port)
    (apply_streams f thread m)
  handles := ht.handles.shelved (fun _ => rfl) (fun _ _ h => congrArg _ h.symm)
    (apply_handles f thread m)
  holders := mem_holdersAfter_apply ht.holders thread m
  ended _ _ hp hfree := ht.ended_after hs thread hp hfree

theorem Tracks.run (ht : l.Tracks f) (hs : f.Sound (ms.countP Move.opensPort + c))
    (thread : Option String) :
    ((history thread ms f).foldl after l).Tracks (run thread ms f) := by
  induction ms generalizing f l with
  | nil => exact ht
  | cons m ms ih =>
    rw [countP_opens_cons] at hs
    exact ih (ht.apply hs thread) (hs.apply thread)

theorem tracks_start {s : Settings} {x : Exchange} (hx : Exchange.create s = .ok x) :
    new.Tracks (start x : Floor α ε) where
  fastened := fastened_start x
  inboxless := inboxless_start x
  opened p := by
    refine iff_of_false List.not_mem_nil ?_
    rintro ⟨hp, hb⟩
    obtain ⟨-, rfl⟩ := Exchange.create_eq hx
    have hinbox := Exchange.hasInbox_of_open _ p hb
    change (List.lookup p [(Exchange.reversePort, Inbox.empty)]).isSome = true at hinbox
    rw [List.lookup_cons, beq_false_of_ne hp] at hinbox
    cases hinbox
  nodup := .nil
  streams := ⟨rfl, fun n st hst => by cases hst⟩
  handles := ⟨rfl, fun n b hb => by cases hb⟩
  holders := holds_start x
  ended n p hp := by cases hp

end BroadcastLedger

end CallExchange
