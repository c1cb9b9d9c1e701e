import CallExchange.Proofs.Resolution

set_option autoImplicit false

/-!
# What a stream contains

The values that reach the port of a stream before it is torn down determine what the stream yields.
When they are pulled, and how pulls and deliveries take turns, makes no difference: each pull gives
the next item, if there is one already.
-/

namespace CallExchange

variable {α ε : Type}

namespace Stream

section Contents

variable (r : Reader) (codec : Codec α ε) (dec : Value → Decoded α ε)

/-- What a stream yields if `vs` reach its port and, when it is torn down, nothing comes after
them. -/
def contents (torn : Bool) : List Value → List (CallResult α ε)
  | [] => if torn then [.error .disconnected] else []
  | v :: vs =>
    if codec.isEnd v then []
    else
      match dec v with
      | .success a => .ok a :: contents torn vs
      | d => [r.resultOf d]

def isOver (torn : Bool) : List Value → Bool
  | [] => torn
  | v :: vs =>
    codec.isEnd v ||
      match dec v with
      | .success _ => isOver torn vs
      | _ => true

/-- What a pull has to answer: the next item, or how things stand after the last one. -/
def dueItem (late : Answer α ε) (isOver : Bool) : List (CallResult α ε) → Answer α ε
  | r :: _ => .result r
  | [] => if isOver then .ended else late

structure Passed (vs : List Value) (rs : List (CallResult α ε)) : Prop where
  contents : ∀ torn ws, contents r codec dec torn (vs ++ ws) = rs ++ contents r codec dec torn ws
  isOver : ∀ torn ws, isOver codec dec torn (vs ++ ws) = isOver codec dec torn ws

variable {r codec dec} {vs ws : List Value} {rs : List (CallResult α ε)} {v : Value} {a : α}
  {torn : Bool}

theorem passed_nil : Passed r codec dec [] [] := ⟨fun _ _ => rfl, fun _ _ => rfl⟩

theorem contents_item (hend : codec.isEnd v = false) (hd : dec v = .success a) (torn : Bool)
    (ws : List Value) :
    contents r codec dec torn (v :: ws) = .ok a :: contents r codec dec torn ws := by
  rw [contents, hend, hd]
  rfl

theorem isOver_item (hend : codec.isEnd v = false) (hd : dec v = .success a) (torn : Bool)
    (ws : List Value) : isOver codec dec torn (v :: ws) = isOver codec dec torn ws := by
  rw [isOver, hend, hd]
  rfl

theorem Passed.item (h : Passed r codec dec vs rs) (hend : codec.isEnd v = false)
    (hd : dec v = .success a) : Passed r codec dec (vs ++ [v]) (rs ++ [.ok a]) where
  contents torn ws := by
    rw [List.append_assoc, h.contents, List.append_assoc]
    exact congrArg (rs ++ ·) (contents_item hend hd torn ws)
  isOver torn ws := by
    rw [List.append_assoc, h.isOver]
    exact isOver_item hend hd torn ws

theorem contents_append (h : isOver codec dec false vs = true) (torn : Bool) (ws : List Value) :
    contents r codec dec torn (vs ++ ws) = contents r codec dec false vs ∧
      isOver codec dec torn (vs ++ ws) = true := by
  induction vs with
  | nil => cases h
  | cons v vs ih =>
    rw [List.cons_append]
    cases hend : codec.isEnd v with
    | true =>
      rw [contents, contents, isOver, hend]
      exact ⟨rfl, rfl⟩
    | false =>
      cases hd : dec v with
      | success a =>
        rw [isOver_item hend hd] at h
        rw [contents_item hend hd, contents_item hend hd, isOver_item hend hd, (ih h).1, (ih h).2]
        exact ⟨rfl, rfl⟩
      | _ =>
        rw [contents, contents, isOver, hend, hd]
        exact ⟨rfl, rfl⟩

theorem contents_failed (hend : codec.isEnd v = false) (hd : ∀ a, dec v ≠ .success a) (torn : Bool)
    (ws : List Value) : contents r codec dec torn (v :: ws) = [r.resultOf (dec v)] ∧
      isOver codec dec torn (v :: ws) = true := by
  rw [contents, isOver, hend]
  cases hv : dec v with
  | success a => exact absurd hv (hd a)
  | _ => exact ⟨rfl, rfl⟩

theorem contents_prefix (torn : Bool) (vs ws : List Value) :
    contents r codec dec false vs <+: contents r codec dec torn (vs ++ ws) := by
  induction vs with
  | nil => exact List.nil_prefix
  | cons v vs ih =>
    rw [List.cons_append]
    cases hend : codec.isEnd v with
    | true =>
      rw [contents, hend]
      exact List.nil_prefix
    | false =>
      cases hd : dec v with
      | success a =>
        rw [contents_item hend hd, contents_item hend hd]
        exact List.cons_prefix_cons.2 ⟨rfl, ih⟩
      | _ =>
        have hne : ∀ a, dec v ≠ .success a := by
          intro a ha
          rw [hd] at ha
          cases ha
        refine ⟨[], ?_⟩
        rw [List.append_nil, (contents_failed hend hne _ _).1, (contents_failed hend hne _ _).1]

inductive Pulls (r : Reader) (codec : Codec α ε) (dec : Value → Decoded α ε) (b : Inbox) :
    Pull α ε → Option (List Value) → Prop where
  | item (v : Value) (vs : List Value) (a : α) (hq : b.queue = v :: vs)
      (hend : codec.isEnd v = false) (hd : dec v = .success a) :
      Pulls r codec dec b (.item (.ok a)) (some vs)
  | idle (hq : b.queue = []) (hb : b.closed = false) : Pulls r codec dec b .nothingYet (some [])
  | cut (hq : b.queue = []) (hb : b.closed = true) :
      Pulls r codec dec b (.item (.error .disconnected)) none
  | ended (v : Value) (vs : List Value) (hq : b.queue = v :: vs) (hend : codec.isEnd v = true) :
      Pulls r codec dec b .done none
  | failed (v : Value) (vs : List Value) (hq : b.queue = v :: vs) (hend : codec.isEnd v = false)
      (hd : ∀ a, dec v ≠ .success a) : Pulls r codec dec b (.item (r.resultOf (dec v))) none

theorem Pulls.answer {b : Inbox} {pulled : Pull α ε} {rest : Option (List Value)}
    (h : Pulls r codec dec b pulled rest) (late : Answer α ε) :
    Session.answerPull late pulled =
      dueItem late (isOver codec dec b.closed b.queue) (contents r codec dec b.closed b.queue) := by
  cases h with
  | item v vs a hq hend hd =>
    rw [hq, contents_item hend hd]
    rfl
  | idle hq hb =>
    rw [hq, hb]
    rfl
  | cut hq hb =>
    rw [hq, hb]
    rfl
  | ended v vs hq hend =>
    rw [hq, contents, isOver, hend]
    rfl
  | failed v vs hq hend hd =>
    rw [hq, (contents_failed hend hd _ _).1]
    rfl

def Pull.item? : Pull α ε → Option (CallResult α ε)
  | item r => some r
  | _ => none

theorem Pulls.last {b : Inbox} {pulled : Pull α ε} (h : Pulls r codec dec b pulled none) :
    contents r codec dec b.closed b.queue = pulled.item?.toList ∧
      isOver codec dec b.closed b.queue = true := by
  cases h with
  | cut hq hb =>
    rw [hq, hb]
    exact ⟨rfl, rfl⟩
  | ended v vs hq hend =>
    rw [hq, contents, isOver, hend]
    exact ⟨rfl, rfl⟩
  | failed v vs hq hend hd =>
    rw [hq]
    exact contents_failed hend hd _ _

theorem Passed.pulls {b : Inbox} {pulled : Pull α ε} {left : List Value}
    (hp : Passed r codec dec vs rs) (h : Pulls r codec dec b pulled (some left)) :
    ∃ us, Passed r codec dec (vs ++ us) (rs ++ pulled.item?.toList) ∧ b.queue = us ++ left := by
  cases h with
  | item v _ a hq hend hd => exact ⟨[v], hp.item hend hd, hq⟩
  | idle hq hb =>
    refine ⟨[], ?_, hq⟩
    rw [List.append_nil]
    exact (List.append_nil rs).symm ▸ hp

end Contents

theorem pullBy_pulls (thread : Option String)
    {g : Inbox → Except Panic (Option Inbox.Received × Inbox)} {st : Stream α ε}
    {dec : Value → Decoded α ε} {x : Exchange} (hst : st.holds = true)
    (hdec : ∀ v, st.codec.decode v = .ok (dec v))
    (hg : g (x.inbox st.port.id) = .ok (x.inbox st.port.id).receive) :
    ∃ pulled rest st' y, pullBy thread g (st, x) = .returned pulled (st', y) ∧
      Pulls ⟨st.task, thread⟩ st.codec dec (x.inbox st.port.id) pulled rest ∧
      (∀ left, rest = some left →
        st' = st ∧ y = x.setInbox st.port.id ⟨left, (x.inbox st.port.id).closed⟩) ∧
      (rest = none → st'.finished = true ∧ st'.failure = none) := by
  have hf : st.finished = false ∧ st.failure = none := by
    simpa [holds] using hst
  simp only [pullBy, hf.2, hf.1, if_neg Bool.false_ne_true, hg]
  generalize x.inbox st.port.id = b
  obtain ⟨queue, closed⟩ := b
  have hover : ∀ y, (∀ left, none = some left →
      { st with finished := true } = st ∧ y = x.setInbox st.port.id ⟨left, closed⟩) ∧
      ((none : Option (List Value)) = none → true = true ∧ st.failure = none) := by
    intro y
    refine ⟨?_, fun _ => ⟨rfl, hf.2⟩⟩
    intro left hleft
    cases hleft
  have hopen : ∀ vs, (∀ left, some vs = some left →
      st = st ∧ x.setInbox st.port.id ⟨vs, closed⟩ = x.setInbox st.port.id ⟨left, closed⟩) ∧
      (some vs = none → st.finished = true ∧ st.failure = none) := by
    intro vs
    refine ⟨?_, fun hnone => by cases hnone⟩
    intro left hleft
    cases hleft
    exact ⟨rfl, rfl⟩
  cases queue with
  | nil =>
    cases closed with
    | false => exact ⟨_, _, _, _, rfl, .idle rfl rfl, hopen []⟩
    | true => exact ⟨_, _, _, _, rfl, .cut rfl rfl, hover _⟩
  | cons v vs =>
    simp only [Inbox.receive, Inbox.tryReceive, accept]
    cases hend : st.codec.isEnd v with
    | true => exact ⟨_, _, _, _, rfl, .ended v vs rfl hend, hover _⟩
    | false =>
      rw [if_neg Bool.false_ne_true, hdec]
      cases hd : dec v with
      | success a => exact ⟨_, _, _, _, rfl, .item v vs a rfl hend hd, hopen vs⟩
      | _ =>
        have hne : ∀ a, dec v ≠ .success a := by
          rw [hd]
          intro a he
          cases he
        have hfailed := Pulls.failed (r := ⟨st.task, thread⟩) (b := ⟨v :: vs, closed⟩) v vs rfl hend hne
        rw [hd] at hfailed
        exact ⟨_, _, _, _, rfl, hfailed, hover _⟩

end Stream

def posted (p : PortId) (h : List (Move α ε × Answer α ε)) : List Value :=
  (h.takeWhile fun e => !Move.tearsDown p e).filterMap fun e => e.1.postTo? p

def torn (p : PortId) (h : List (Move α ε × Answer α ε)) : Bool := h.any (Move.tearsDown p)

namespace Move

variable {m : Move α ε} {n : Nat} {a late : Answer α ε}

/-- What a pull answers when there is no item yet. A timed pull without a deadline is no pull. -/
def pullLate? : Move α ε → Option (Answer α ε)
  | .step (.next _) _ => some .wouldBlock
  | .step (.nextTimeout _ t) _ => if t.noDeadline then none else some .timedOut
  | _ => none

def pulls? (n : Nat) (m : Move α ε) : Option (Answer α ε) :=
  if m.place? = some ⟨.streams, n⟩ then m.pullLate? else none

def yields? (n : Nat) : Move α ε × Answer α ε → Option (CallResult α ε)
  | (m, .result r) => if (m.pulls? n).isSome then some r else none
  | _ => none

def stops (n : Nat) : Move α ε → Bool
  | .step (.closeStream i) _ | .step (.dropStream i) _ => i = n
  | _ => false

theorem pulls?_eq_some (h : m.pulls? n = some late) :
    m.place? = some ⟨.streams, n⟩ ∧ m.pullLate? = some late := by
  unfold pulls? at h
  split at h
  · rename_i hplace
    exact ⟨hplace, h⟩
  · cases h

theorem pulls?_of_place? (h : m.place? ≠ some ⟨.streams, n⟩) : m.pulls? n = none := by
  rw [pulls?, if_neg h]

theorem uses_stream (h : m.place? = some ⟨.streams, n⟩) :
    m.pullLate?.isSome = true ∨
      (∃ t hel, t.noDeadline = true ∧ m = .step (.nextTimeout n t) hel) ∨ m.stops n = true := by
  unfold place? at h
  split at h
  case h_6 => exact .inl rfl
  case h_7 i t hel =>
    cases h
    cases ht : t.noDeadline with
    | true => exact .inr (.inl ⟨t, hel, ht, rfl⟩)
    | false =>
      rw [pullLate?, ht]
      exact .inl rfl
  case h_8 | h_9 =>
    cases h
    exact .inr (.inr (decide_eq_true rfl))
  all_goals cases h

theorem yields?_of_pulls? (h : m.pulls? n = none) : yields? n (m, a) = none := by
  unfold yields?
  split
  · rename_i heq
    cases heq
    rw [h]
    rfl
  · rfl

theorem yields?_pull (h : m.pulls? n = some late) (pulled : Stream.Pull α ε) :
    yields? n (m, Session.answerPull late pulled) = pulled.item? := by
  cases pulled with
  | item r =>
    change (if (m.pulls? n).isSome then some r else none) = some r
    rw [h]
    rfl
  | done => rfl
  | nothingYet =>
    have hlate := (pulls?_eq_some h).2
    have hnot : late = .wouldBlock ∨ late = .timedOut := by
      unfold pullLate? at hlate
      split at hlate
      · exact .inl (Option.some.inj hlate).symm
      · split at hlate
        · cases hlate
        · exact .inr (Option.some.inj hlate).symm
      · cases hlate
    rcases hnot with rfl | rfl <;> rfl

theorem yields?_due (h : m.pulls? n = some late) (isOver : Bool) (rs : List (CallResult α ε)) :
    yields? n (m, Stream.dueItem late isOver rs) = rs.head? := by
  cases rs with
  | cons r rs => exact yields?_pull h (.item r)
  | nil =>
    cases isOver with
    | true => rfl
    | false => exact yields?_pull h .nothingYet

end Move

def yielded (n : Nat) (h : List (Move α ε × Answer α ε)) : List (CallResult α ε) :=
  h.filterMap (Move.yields? n)

section History

variable {p : PortId} {h : List (Move α ε × Answer α ε)} {e : Move α ε × Answer α ε}

def added (p : PortId) (h : List (Move α ε × Answer α ε)) (e : Move α ε × Answer α ε) :
    List Value :=
  if torn p h then [] else (e.1.postTo? p).toList

theorem torn_concat (p : PortId) (h : List (Move α ε × Answer α ε)) (e : Move α ε × Answer α ε) :
    torn p (h ++ [e]) = (torn p h || Move.tearsDown p e) := by
  rw [torn, List.any_append, List.any_cons, List.any_nil, Bool.or_false]
  rfl

theorem posted_concat (p : PortId) (h : List (Move α ε × Answer α ε)) (e : Move α ε × Answer α ε) :
    posted p (h ++ [e]) = posted p h ++ added p h e := by
  unfold posted added torn
  induction h with
  | nil =>
    cases hpost : e.1.postTo? p with
    | none =>
      cases ht : Move.tearsDown p e <;> simp [ht, hpost]
    | some v =>
      have ht := Move.tearsDown_of_post? (p := p) (Move.postTo?_eq_some hpost) e.2
      rw [Prod.eta] at ht
      simp [ht, hpost]
  | cons e' h ih =>
    rw [List.cons_append, List.takeWhile_cons, List.takeWhile_cons, List.any_cons]
    cases ht : Move.tearsDown p e' with
    | true => simp
    | false =>
      simp only [Bool.not_false, if_true, List.filterMap_cons, Bool.false_or, ih]
      cases e'.1.postTo? p <;> rfl

theorem inboxStep_eq (p : PortId) (h : List (Move α ε × Answer α ε)) (e : Move α ε × Answer α ε)
    (queue : List Value) :
    Floor.inboxStep p e ⟨queue, torn p h⟩ = ⟨queue ++ added p h e, torn p (h ++ [e])⟩ := by
  rw [torn_concat, Floor.inboxStep, added]
  cases hpost : e.1.postTo? p with
  | some v =>
    have ht := Move.tearsDown_of_post? (p := p) (Move.postTo?_eq_some hpost) e.2
    rw [Prod.eta] at ht
    rw [ht, Bool.or_false]
    cases torn p h with
    | true => exact congrArg (Inbox.mk · true) (List.append_nil queue).symm
    | false => rfl
  | none =>
    rw [Option.toList_none, ite_self, List.append_nil]
    cases Move.tearsDown p e with
    | true =>
      rw [Bool.or_true]
      rfl
    | false =>
      rw [Bool.or_false]
      rfl

theorem history_quiet {m : Move α ε} {q : Place} (hm : m.place? = some q) (p : PortId)
    (h : List (Move α ε × Answer α ε)) (a : Answer α ε) :
    posted p (h ++ [(m, a)]) = posted p h ∧ torn p (h ++ [(m, a)]) = torn p h := by
  obtain ⟨hpost, ht⟩ := Move.quiet_of_place? (p := p) hm a
  rw [posted_concat, torn_concat, added, hpost, ht, Bool.or_false, Option.toList_none, ite_self,
    List.append_nil]
  exact ⟨rfl, rfl⟩

variable {r : Reader} {codec : Codec α ε} {dec : Value → Decoded α ε}

theorem contents_concat (hover : Stream.isOver codec dec (torn p h) (posted p h) = true)
    (e : Move α ε × Answer α ε) :
    Stream.contents r codec dec (torn p (h ++ [e])) (posted p (h ++ [e])) =
        Stream.contents r codec dec (torn p h) (posted p h) ∧
      Stream.isOver codec dec (torn p (h ++ [e])) (posted p (h ++ [e])) = true := by
  rw [posted_concat, torn_concat, added]
  cases ht : torn p h with
  | true =>
    rw [ht] at hover
    rw [Bool.true_or, if_pos rfl, List.append_nil]
    exact ⟨rfl, hover⟩
  | false =>
    rw [ht] at hover
    exact Stream.contents_append hover _ _

theorem contents_history (p : PortId) (h h' : List (Move α ε × Answer α ε)) :
    Stream.contents r codec dec (torn p h) (posted p h) <+:
      Stream.contents r codec dec (torn p (h ++ h')) (posted p (h ++ h')) := by
  induction h' generalizing h with
  | nil => exact ⟨[], by rw [List.append_nil, List.append_nil]⟩
  | cons e h' ih =>
    have htail := ih (h ++ [e])
    rw [List.append_assoc, List.singleton_append] at htail
    refine List.IsPrefix.trans ?_ htail
    rw [posted_concat, torn_concat, added]
    cases torn p h with
    | true => exact ⟨[], by rw [Bool.true_or, if_pos rfl, List.append_nil, List.append_nil]⟩
    | false => exact Stream.contents_prefix _ _ _

end History

/-- What a stream has to yield in all after a history. -/
def Stream.contentsAfter (thread : Option String) (st : Stream α ε) (dec : Value → Decoded α ε)
    (h : List (Move α ε × Answer α ε)) : List (CallResult α ε) :=
  contents ⟨st.task, thread⟩ st.codec dec (torn st.port.id h) (posted st.port.id h)

def Stream.isOverAfter (st : Stream α ε) (dec : Value → Decoded α ε)
    (h : List (Move α ε × Answer α ε)) : Bool :=
  isOver st.codec dec (torn st.port.id h) (posted st.port.id h)

namespace Floor

variable {f f' : Floor α ε} {m : Move α ε} {ms : List (Move α ε)} {c n : Nat} {p : PortId}
  {mine : Place} {hd : Handle α ε} {h : List (Move α ε × Answer α ε)} {vs : List Value}

/-- The inbox of `p` holds what came to `p` but for `vs`. -/
structure Feeds (f : Floor α ε) (mine : Place) (hd : Handle α ε) (p : PortId)
    (h : List (Move α ε × Answer α ε)) (vs : List Value) : Prop where
  keeps : f.Keeps mine hd p
  hasInbox : f.exchange.hasInbox p = true
  closed : (f.exchange.inbox p).closed = torn p h
  queue : posted p h = vs ++ (f.exchange.inbox p).queue

theorem hasInbox_apply (hs : f.Sound (m.opensPort.toNat + c)) (thread : Option String)
    (hi : f.exchange.hasInbox p = true) : (f.apply thread m).2.exchange.hasInbox p = true := by
  obtain ⟨ops, he⟩ := hs.effect thread m
  exact (he.runs.grows hs.consistent (he.fit hs)).hasInbox p hi

theorem Feeds.apply (hf : f.Feeds mine hd p h vs) (hs : f.Sound (m.opensPort.toNat + c))
    (hm : m.place? ≠ some mine) (thread : Option String) :
    (f.apply thread m).2.Feeds mine hd p (h ++ [(m, (f.apply thread m).1)]) vs := by
  have hstep := inbox_apply hs hf.keeps hf.hasInbox hm thread
  have hb : f.exchange.inbox p = ⟨(f.exchange.inbox p).queue, torn p h⟩ := by
    rw [← hf.closed]
  rw [hb, inboxStep_eq] at hstep
  refine ⟨hf.keeps.apply hs hm thread, hasInbox_apply hs thread hf.hasInbox, ?_, ?_⟩
  · rw [hstep]
  · rw [hstep, posted_concat, hf.queue, List.append_assoc]

theorem Feeds.spared_run (thread : Option String) (hf : f.Feeds mine hd p h vs)
    (hs : f.Sound (ms.countP Move.opensPort + c)) (hms : ∀ m ∈ ms, m.place? ≠ some mine) :
    (run thread ms f).Feeds mine hd p (h ++ history thread ms f) vs := by
  induction ms generalizing f h with
  | nil =>
    rw [history, List.append_nil]
    exact hf
  | cons m ms ih =>
    rw [countP_opens_cons] at hs
    have hm := hms m List.mem_cons_self
    have htail := ih (hf.apply hs hm thread) (hs.apply thread)
      (fun m' hm' => hms m' (List.mem_cons_of_mem m hm'))
    rw [List.append_assoc] at htail
    exact htail

section Pulls

variable {st : Stream α ε} {dec : Value → Decoded α ε} {late : Answer α ε}
  {g : Inbox → Except Panic (Option Inbox.Received × Inbox)}

theorem apply_pull (thread : Option String) (h : m.pulls? n = some late) (f : Floor α ε) :
    ∃ g : Inbox → Except Panic (Option Inbox.Received × Inbox), (∀ b, g b = .ok b.receive) ∧
      f.apply thread m =
        f.turn (f.session.pullStream n (Stream.pullBy thread g) (Session.answerPull late)) := by
  obtain ⟨hplace, hlate⟩ := Move.pulls?_eq_some h
  unfold Move.pullLate? at hlate
  split at hlate
  · cases hplace
    cases hlate
    exact ⟨fun b => .ok b.receive, fun _ => rfl, rfl⟩
  · rename_i i t hel
    cases hplace
    split at hlate
    · cases hlate
    · rename_i hdeadline
      cases hlate
      refine ⟨Inbox.receiveWithin t, fun b => ?_, rfl⟩
      rw [Inbox.receiveWithin, if_neg hdeadline]
  · cases hlate

theorem pullStream_open (thread : Option String) (late : Answer α ε)
    (hq : f.session.streams[n]?.join = some st) (hst : st.holds = true)
    (hdec : ∀ v, st.codec.decode v = .ok (dec v)) (hi : f.exchange.hasInbox st.port.id = true)
    (hg : ∀ b, g b = .ok b.receive) :
    let t := f.turn (f.session.pullStream n (Stream.pullBy thread g) (Session.answerPull late))
    let b := f.exchange.inbox st.port.id
    ∃ pulled rest, t.1 = Session.answerPull late pulled ∧
      Stream.Pulls ⟨st.task, thread⟩ st.codec dec b pulled rest ∧
      (∀ left, rest = some left → Swap ⟨.streams, n⟩ (some (.stream st)) f t.2 ∧
        t.2.exchange.hasInbox st.port.id = true ∧ t.2.exchange.inbox st.port.id = ⟨left, b.closed⟩) ∧
      (rest = none → ∃ st', t.2.handle? ⟨.streams, n⟩ = some (.stream st') ∧ st'.finished = true ∧
        st'.failure = none) := by
  obtain ⟨pulled, rest, st', y, hpull, hpulls, hopen, hover⟩ :=
    Stream.pullBy_pulls thread hst hdec (hg (f.exchange.inbox st.port.id))
  have hturn : f.session.pullStream n (Stream.pullBy thread g) (Session.answerPull late) =
      (Session.answerPull late pulled, (f.session.put y).setStream n (some st')) := by
    rw [Session.pullStream, Session.withHandle, hq, session_exchange]
    dsimp only
    rw [hpull]
  rw [hturn]
  have hswap : Swap ⟨.streams, n⟩ (some (.stream st')) f
      (f.turn (Session.answerPull late pulled, (f.session.put y).setStream n (some st'))).2 :=
    swap_stream hq (some st') (f.session.put y).stage
  refine ⟨pulled, rest, rfl, hpulls, ?_, ?_⟩
  · intro left hleft
    obtain ⟨rfl, rfl⟩ := hopen left hleft
    refine ⟨hswap, (f.exchange.hasInbox_setInbox _ _ _).trans hi, ?_⟩
    exact (f.exchange.inbox_setInbox _ _ _).trans (if_pos ⟨rfl, hi⟩)
  · intro hnone
    exact ⟨st', hswap.self, hover hnone⟩

theorem pullStream_over (thread : Option String) (late : Answer α ε)
    (hq : f.session.streams[n]?.join = some st) (hfinished : st.finished = true)
    (hfailure : st.failure = none) :
    f.session.pullStream n (Stream.pullBy thread g) (Session.answerPull late) =
      (.ended, (f.session.put f.exchange).setStream n (some st)) := by
  have hpull : Stream.pullBy thread g (st, f.exchange) = .returned .done (st, f.exchange) := by
    simp only [Stream.pullBy, hfailure, hfinished, if_true]
  rw [Session.pullStream, Session.withHandle, hq, session_exchange]
  dsimp only
  rw [hpull]
  rfl

/-- A stream in the course of a run that brought `h` to its port, after it has yielded `rs`. -/
inductive Flows (thread : Option String) (st : Stream α ε) (dec : Value → Decoded α ε) (n : Nat)
    (f : Floor α ε) (h : List (Move α ε × Answer α ε)) (rs : List (CallResult α ε)) : Prop where
  | opened (vs : List Value) (hp : Stream.Passed ⟨st.task, thread⟩ st.codec dec vs rs)
      (hf : f.Feeds ⟨.streams, n⟩ (.stream st) st.port.id h vs) : Flows thread st dec n f h rs
  | ended (st' : Stream α ε) (hq : f.handle? ⟨.streams, n⟩ = some (.stream st'))
      (hend : st'.finished = true ∧ st'.failure = none) (hover : st.isOverAfter dec h = true)
      (hrs : rs = st.contentsAfter thread dec h) : Flows thread st dec n f h rs

variable {thread : Option String} {rs : List (CallResult α ε)}

theorem Flows.spared (hf : Flows thread st dec n f h rs) (hs : f.Sound (m.opensPort.toNat + c))
    (hm : m.place? ≠ some ⟨.streams, n⟩) :
    Flows thread st dec n (f.apply thread m).2 (h ++ [(m, (f.apply thread m).1)]) rs := by
  cases hf with
  | opened vs hp hf => exact .opened vs hp (hf.apply hs hm thread)
  | ended st' hq hend hover hrs =>
    obtain ⟨ops, he⟩ := hs.effect thread m
    obtain ⟨hsame, hover'⟩ := contents_concat hover (m, (f.apply thread m).1)
    exact .ended st' (he.kept _ _ hm hq) hend hover' (hrs.trans hsame.symm)

theorem contentsAfter_quiet {q : Place} (hm : m.place? = some q) (thread : Option String)
    (st : Stream α ε) (dec : Value → Decoded α ε) (h : List (Move α ε × Answer α ε))
    (a : Answer α ε) :
    st.contentsAfter thread dec (h ++ [(m, a)]) = st.contentsAfter thread dec h ∧
      st.isOverAfter dec (h ++ [(m, a)]) = st.isOverAfter dec h := by
  obtain ⟨hposted, htorn⟩ := history_quiet hm st.port.id h a
  rw [Stream.contentsAfter, Stream.contentsAfter, Stream.isOverAfter, Stream.isOverAfter,
    hposted, htorn]
  exact ⟨rfl, rfl⟩

theorem Feeds.contentsAfter {vs : List Value}
    (hf : f.Feeds ⟨.streams, n⟩ (.stream st) st.port.id h vs)
    (hp : Stream.Passed ⟨st.task, thread⟩ st.codec dec vs rs) :
    st.contentsAfter thread dec h = rs ++ Stream.contents ⟨st.task, thread⟩ st.codec dec
        (f.exchange.inbox st.port.id).closed (f.exchange.inbox st.port.id).queue ∧
      st.isOverAfter dec h = Stream.isOver st.codec dec (f.exchange.inbox st.port.id).closed
        (f.exchange.inbox st.port.id).queue := by
  rw [Stream.contentsAfter, Stream.isOverAfter, hf.queue, hp.contents, hp.isOver, hf.closed]
  exact ⟨rfl, rfl⟩

theorem Feeds.pull {vs : List Value} (hf : f.Feeds ⟨.streams, n⟩ (.stream st) st.port.id h vs)
    (hp : Stream.Passed ⟨st.task, thread⟩ st.codec dec vs rs) (hst : st.holds = true)
    (hdec : ∀ v, st.codec.decode v = .ok (dec v)) (hm : m.pulls? n = some late) :
    (f.apply thread m).1 = Stream.dueItem late (st.isOverAfter dec h)
        ((st.contentsAfter thread dec h).drop rs.length) ∧
      Flows thread st dec n (f.apply thread m).2 (h ++ [(m, (f.apply thread m).1)])
        (rs ++ (Move.yields? n (m, (f.apply thread m).1)).toList) := by
  obtain ⟨g, hg, happly⟩ := apply_pull thread hm f
  obtain ⟨pulled, rest, hanswer, hpulls, hopen, hover⟩ :=
    pullStream_open thread late (stream_of_handle? hf.keeps.handle) hst hdec hf.hasInbox hg
  rw [← happly] at hanswer hopen hover
  obtain ⟨hcontents, hisOver⟩ := hf.contentsAfter hp
  have hplace := (Move.pulls?_eq_some hm).1
  obtain ⟨hposted, htorn⟩ := history_quiet hplace st.port.id h (f.apply thread m).1
  obtain ⟨hsame, hover'⟩ := contentsAfter_quiet hplace thread st dec h (f.apply thread m).1
  have hyield : Move.yields? n (m, (f.apply thread m).1) = pulled.item? := by
    rw [hanswer]
    exact Move.yields?_pull hm pulled
  refine ⟨?_, ?_⟩
  · rw [hanswer, hpulls.answer, hcontents, hisOver, List.drop_left]
  · rw [hyield]
    cases rest with
    | some left =>
      obtain ⟨hswap, hinbox, hleft⟩ := hopen left rfl
      obtain ⟨us, hpassed, hqueue⟩ := hp.pulls hpulls
      refine .opened (vs ++ us) hpassed ⟨hf.keeps.swap hswap hf.keeps.port hf.keeps.held, hinbox, ?_, ?_⟩
      · rw [hleft, htorn]
        exact hf.closed
      · rw [hleft, hposted, hf.queue, hqueue, List.append_assoc]
    | none =>
      obtain ⟨st', hq', hend⟩ := hover rfl
      obtain ⟨hlast, hdone⟩ := hpulls.last
      refine .ended st' hq' hend ?_ ?_
      · rw [hover', hisOver, hdone]
      · rw [hsame, hcontents, hlast]

/-- A pull answers with the next item, if there is one, and the stream goes on from there. -/
theorem Flows.pull (hf : Flows thread st dec n f h rs) (hst : st.holds = true)
    (hdec : ∀ v, st.codec.decode v = .ok (dec v)) (hm : m.pulls? n = some late) :
    (f.apply thread m).1 = Stream.dueItem late (st.isOverAfter dec h)
        ((st.contentsAfter thread dec h).drop rs.length) ∧
      Flows thread st dec n (f.apply thread m).2 (h ++ [(m, (f.apply thread m).1)])
        (rs ++ (Move.yields? n (m, (f.apply thread m).1)).toList) := by
  cases hf with
  | opened vs hp hf => exact hf.pull hp hst hdec hm
  | ended st' hq hend hover hrs =>
    obtain ⟨g, -, happly⟩ := apply_pull thread hm f
    have hq' := stream_of_handle? hq
    rw [pullStream_over thread late hq' hend.1 hend.2] at happly
    have hswap : Swap ⟨.streams, n⟩ (some (.stream st')) f (f.apply thread m).2 := by
      rw [happly]
      exact swap_stream hq' (some st') (f.session.put f.exchange).stage
    have hanswer : (f.apply thread m).1 = .ended := by
      rw [happly]
      rfl
    obtain ⟨hsame, hover'⟩ := contentsAfter_quiet (Move.pulls?_eq_some hm).1 thread st dec h
      (f.apply thread m).1
    refine ⟨?_, .ended st' hswap.self hend (hover'.trans hover) ?_⟩
    · rw [hanswer, hrs, List.drop_length, hover]
      rfl
    · rw [hsame, hanswer, ← hrs]
      exact List.append_nil rs

theorem nextTimeout_noDeadline (thread : Option String) {t : Timeout}
    (hel : (Step.nextTimeout n t : Step α ε).isElementary = true)
    (hq : f.session.streams[n]?.join = some st) (hfailure : st.failure = none)
    (ht : t.noDeadline = true) :
    ∃ a, f.apply thread (.step (.nextTimeout n t) hel) =
      (a, { f with session := (f.session.put f.exchange).setStream n (some st) }) := by
  have hpull : ∃ a, f.session.pullStream n (Stream.nextTimeout thread t) (Session.answerPull .timedOut) =
      (a, (f.session.put f.exchange).setStream n (some st)) := by
    rw [Session.pullStream, Session.withHandle, hq, session_exchange]
    dsimp only
    simp only [Stream.nextTimeout, Stream.pullBy, hfailure, Inbox.receiveWithin, ht, if_true]
    cases st.finished with
    | true => exact ⟨_, rfl⟩
    | false => exact ⟨_, rfl⟩
  obtain ⟨a, hpull⟩ := hpull
  exact ⟨a, congrArg f.turn hpull⟩

theorem Flows.unread {t : Timeout} (hf : Flows thread st dec n f h rs) (hst : st.holds = true)
    (ht : t.noDeadline = true) (hel : (Step.nextTimeout n t : Step α ε).isElementary = true) :
    let m : Move α ε := .step (.nextTimeout n t) hel
    Flows thread st dec n (f.apply thread m).2 (h ++ [(m, (f.apply thread m).1)]) rs := by
  intro m
  cases hf with
  | opened vs hp hf =>
    obtain ⟨hposted, htorn⟩ := history_quiet (m := m) rfl st.port.id h (f.apply thread m).1
    have hfailure := (Stream.open_of_holds hst).2
    have hq := stream_of_handle? hf.keeps.handle
    obtain ⟨a, happly⟩ := nextTimeout_noDeadline thread hel hq hfailure ht
    have hswap := swap_stream hq (some st) (f.session.put f.exchange).stage
    rw [happly] at hposted htorn ⊢
    refine .opened vs hp ⟨hf.keeps.swap hswap hf.keeps.port hf.keeps.held, hf.hasInbox, ?_, ?_⟩
    · rw [htorn]
      exact hf.closed
    · rw [hposted]
      exact hf.queue
  | ended st' hq hend hover hrs =>
    have hq' := stream_of_handle? hq
    obtain ⟨a, happly⟩ := nextTimeout_noDeadline thread hel hq' hend.2 ht
    have hswap := swap_stream hq' (some st') (f.session.put f.exchange).stage
    obtain ⟨hsame, hover'⟩ := contentsAfter_quiet (m := m) rfl thread st dec h (f.apply thread m).1
    rw [happly] at hsame hover' ⊢
    exact .ended st' hswap.self hend (hover'.trans hover) (hrs.trans hsame.symm)

theorem Flows.apply (hf : Flows thread st dec n f h rs) (hst : st.holds = true)
    (hdec : ∀ v, st.codec.decode v = .ok (dec v)) (hs : f.Sound (m.opensPort.toNat + c))
    (hstops : m.stops n = false) :
    Flows thread st dec n (f.apply thread m).2 (h ++ [(m, (f.apply thread m).1)])
      (rs ++ (Move.yields? n (m, (f.apply thread m).1)).toList) := by
  have hnothing : m.pulls? n = none →
      rs ++ (Move.yields? n (m, (f.apply thread m).1)).toList = rs := by
    intro hnone
    rw [Move.yields?_of_pulls? hnone]
    exact List.append_nil rs
  by_cases hm : m.place? = some ⟨.streams, n⟩
  · cases hlate : m.pullLate? with
    | some late =>
      have hpulls : m.pulls? n = some late := by
        rw [Move.pulls?, if_pos hm, hlate]
      exact (hf.pull hst hdec hpulls).2
    | none =>
      have hnone : m.pulls? n = none := by
        rw [Move.pulls?, if_pos hm, hlate]
      rw [hnothing hnone]
      rcases Move.uses_stream hm with hsome | ⟨t, hel, ht, rfl⟩ | hstop
      · rw [hlate] at hsome
        cases hsome
      -- a timed pull without a deadline leaves the inbox as it is
      · exact hf.unread hst ht hel
      · rw [hstops] at hstop
        cases hstop
  · rw [hnothing (Move.pulls?_of_place? hm)]
    exact hf.spared hs hm

theorem yielded_cons (thread : Option String) (n : Nat) (m : Move α ε) (ms : List (Move α ε))
    (f : Floor α ε) : yielded n (history thread (m :: ms) f) =
      (Move.yields? n (m, (f.apply thread m).1)).toList ++
        yielded n (history thread ms (f.apply thread m).2) := by
  rw [history, yielded, List.filterMap_cons]
  cases Move.yields? n (m, (f.apply thread m).1) <;> rfl

theorem Flows.flows_run (hf : Flows thread st dec n f h rs) (hst : st.holds = true)
    (hdec : ∀ v, st.codec.decode v = .ok (dec v)) (hs : f.Sound (ms.countP Move.opensPort + c))
    (hstops : ∀ m ∈ ms, m.stops n = false) :
    Flows thread st dec n (run thread ms f) (h ++ history thread ms f)
      (rs ++ yielded n (history thread ms f)) := by
  induction ms generalizing f h rs with
  | nil =>
    rw [history, yielded, List.filterMap_nil, List.append_nil, List.append_nil]
    exact hf
  | cons m ms ih =>
    rw [countP_opens_cons] at hs
    have hnext := hf.apply hst hdec hs (hstops m List.mem_cons_self)
    have htail := ih hnext (hs.apply thread) (fun m' hm' => hstops m' (List.mem_cons_of_mem m hm'))
    rw [List.append_assoc, List.append_assoc] at htail
    rw [yielded_cons]
    exact htail

theorem Flows.isPrefix (hf : Flows thread st dec n f h rs) :
    rs <+: st.contentsAfter thread dec h := by
  cases hf with
  | opened vs hp hf =>
    rw [(hf.contentsAfter hp).1]
    exact List.prefix_append _ _
  | ended st' hq hend hover hrs =>
    exact hrs ▸ List.prefix_rfl

theorem Flows.pull_all (hf : Flows thread st dec n f h rs) (hst : st.holds = true)
    (hdec : ∀ v, st.codec.decode v = .ok (dec v)) (hms : ∀ m ∈ ms, (m.pulls? n).isSome = true)
    (hlength : (st.contentsAfter thread dec h).length ≤ rs.length + ms.length) :
    rs ++ yielded n (history thread ms f) = st.contentsAfter thread dec h := by
  induction ms generalizing f h rs with
  | nil =>
    rw [history, yielded, List.filterMap_nil, List.append_nil]
    exact hf.isPrefix.eq_of_length_le hlength
  | cons m ms ih =>
    obtain ⟨late, hlate⟩ := Option.isSome_iff_exists.1 (hms m List.mem_cons_self)
    obtain ⟨hanswer, hnext⟩ := hf.pull hst hdec hlate
    obtain ⟨hsame, -⟩ := contentsAfter_quiet (Move.pulls?_eq_some hlate).1 thread st dec h
      (f.apply thread m).1
    have hyield := Move.yields?_due hlate (st.isOverAfter dec h)
      ((st.contentsAfter thread dec h).drop rs.length)
    rw [← hanswer, List.head?_drop] at hyield
    have htail := ih hnext (fun m' hm' => hms m' (List.mem_cons_of_mem m hm')) ?_
    · rw [hsame, List.append_assoc] at htail
      rw [yielded_cons]
      exact htail
    · rw [hsame, List.length_append, hyield]
      rw [List.length_cons] at hlength
      cases hget : (st.contentsAfter thread dec h)[rs.length]? with
      | some r =>
        change _ ≤ rs.length + 1 + ms.length
        omega
      | none =>
        have hle := List.getElem?_eq_none_iff.1 hget
        omega

end Pulls

def streamed? (f : Floor α ε) : Move α ε → Option Exchange.Broadcast
  | .beginStream task _ =>
    if f.session.dispatcher then (f.exchange.openBroadcast task).1.toOption else none
  | _ => none

section Call

variable {task : String} {codec : Codec α ε} {port : Exchange.Broadcast}

theorem apply_beginStream (thread : Option String) (codec : Codec α ε)
    (hd : f.session.dispatcher = true) (h : (f.exchange.openBroadcast task).1 = .ok port) :
    ∃ x : Exchange, x.core = (f.exchange.openBroadcast task).2.core ∧
      (f.apply thread (.beginStream task codec)).2 =
        (f.onStage (f.session.stage.put x.hold)).launch (.stream task codec port) := by
  obtain ⟨x, hx, hbegin⟩ := Exchange.beginStream_ok task h
  refine ⟨x, hx, ?_⟩
  change (f.begin _ _ _).2 = _
  unfold Floor.begin
  rw [if_pos hd, hbegin]
  rfl

theorem feeds_beginStream (hs : f.Sound (1 + c))
    (h : f.streamed? (.beginStream task codec) = some port) (thread : Option String) :
    let t := f.apply thread (.beginStream task codec)
    t.2.Feeds ⟨.running, f.running.length⟩ (.running (.stream task codec port)) port.id
      [(.beginStream task codec, t.1)] [] := by
  obtain ⟨hd, ho⟩ := of_dispatcher h
  obtain ⟨x, hcore, hf'⟩ := apply_beginStream thread codec hd ho
  obtain ⟨hp, -, hopened⟩ := Exchange.openBroadcast_ok ho
  have hinboxes : x.inboxes = f.exchange.inboxes ++ [(f.exchange.nextPort, .empty)] :=
    (Exchange.inboxes_congr hcore).trans (congrArg Exchange.Core.inboxes hopened)
  have hswap := append_running f (.stream task codec port) (f.session.stage.put x.hold)
  rw [table, List.length_map] at hswap
  have hinbox : x.inbox port.id = .empty := by
    rw [Exchange.inbox_opened hs.consistent hinboxes, if_pos hp]
  dsimp only
  rw [hf']
  refine ⟨.opened hs hswap hp rfl (.inl (Nat.le_refl 1)), ?_, ?_, ?_⟩
  · change x.hasInbox port.id = true
    rw [Exchange.hasInbox_opened hinboxes, hp, decide_eq_true rfl, Bool.or_true]
  · change (x.inbox port.id).closed = _
    rw [hinbox]
    rfl
  · change _ = [] ++ (x.inbox port.id).queue
    rw [hinbox]
    rfl

theorem feeds_finish {i : Nat} (thread : Option String) (buffer : Buffer)
    (hf : f.Feeds ⟨.running, i⟩ (.running (.stream task codec port)) port.id h vs) :
    let st : Stream α ε := ⟨port, codec, task, none, false⟩
    let m : Move α ε := .finish i (.ok buffer)
    let t := f.apply thread m
    (∃ text, t.1 = .stream f.session.streams.length st text) ∧
      t.2.Feeds ⟨.streams, f.session.streams.length⟩ (.stream st) port.id (h ++ [(m, t.1)]) vs := by
  intro st m t
  have hr := code_of_handle? hf.keeps.handle
  have hturn : t = f.finish thread i (.ok buffer) := rfl
  rw [Floor.finish, hr] at hturn
  have hswap := swap_running hr (f.session.stage.put f.exchange)
  have happend := append_stream { f.onStage (f.session.stage.put f.exchange) with
    running := f.running.set i none } st (f.session.stage.put f.exchange)
  rw [table, List.length_map] at happend
  obtain ⟨hposted, htorn⟩ := history_quiet (m := m) rfl port.id h t.1
  rw [hturn] at hposted htorn ⊢
  refine ⟨⟨_, rfl⟩, hf.keeps.passed hswap happend rfl (.inl (Nat.le_refl 1)), hf.hasInbox, ?_, ?_⟩
  · rw [htorn]
    exact hf.closed
  · rw [hposted]
    exact hf.queue

theorem flows_call {buffer : Buffer} {during : List (Move α ε)} (thread : Option String)
    (dec : Value → Decoded α ε)
    (hs : f.Sound (List.countP Move.opensPort (Move.beginStream task codec :: during ++
      [Move.finish f.running.length (.ok buffer)]) + c))
    (hopen : f.streamed? (.beginStream task codec) = some port)
    (hentry : ∀ ended, .finish f.running.length ended ∉ during) :
    let st : Stream α ε := ⟨port, codec, task, none, false⟩
    let returns : Move α ε := .finish f.running.length (.ok buffer)
    let g := run thread (.beginStream task codec :: during) f
    let t := g.apply thread returns
    (∃ text, t.1 = .stream g.session.streams.length st text) ∧
      Flows thread st dec g.session.streams.length t.2
        (history thread (.beginStream task codec :: during ++ [returns]) f) [] := by
  intro st returns g t
  rw [countP_opens_append, countP_opens_cons] at hs
  have hbegun := feeds_beginStream hs hopen thread
  have hwaiting := hbegun.spared_run thread (hs.apply thread) fun m hm hplace => by
    obtain ⟨ended, rfl⟩ := Move.uses_running hplace
    exact hentry ended hm
  obtain ⟨hanswer, hfeeds⟩ := feeds_finish thread buffer hwaiting
  refine ⟨hanswer, .opened [] Stream.passed_nil ?_⟩
  rw [history_append]
  exact hfeeds

end Call

/-- A stream call whose entry returns, in any run in which the stream is neither closed nor dropped
and the numbers for ports are not used up: what was yielded is the beginning of what the values that
reached its port contain, which only grows; each pull gives the next item, if there is one, or says
how things stand; and enough pulls in a row yield all there is. -/
theorem run_yields {s : Settings} {x : Exchange} (hx : Exchange.create s = .ok x)
    (thread : Option String) (before during after : List (Move α ε)) (task : String)
    (codec : Codec α ε) (buffer : Buffer) {dec : Value → Decoded α ε} {port : Exchange.Broadcast}
    (hdec : ∀ v, codec.decode v = .ok (dec v))
    (hopen : (run thread before (start x)).streamed? (.beginStream task codec) = some port)
    (hentry : ∀ ended, .finish (run thread before (start x)).running.length ended ∉ during)
    (hfew : (before ++ during ++ after).countP Move.opensPort + 2 < PortId.supply) :
    let f := run thread before (start x)
    let returns : Move α ε := .finish f.running.length (.ok buffer)
    let call := .beginStream task codec :: during ++ [returns]
    let g := run thread (.beginStream task codec :: during) f
    let n := g.session.streams.length
    let t := g.apply thread returns
    let st : Stream α ε := ⟨port, codec, task, none, false⟩
    (∃ text, t.1 = .stream n st text) ∧
    ∀ past future, after = past ++ future → (∀ m ∈ past, m.stops n = false) →
      let h := history thread (call ++ past) f
      let rs := yielded n (history thread past t.2)
      rs <+: st.contentsAfter thread dec h ∧
      st.contentsAfter thread dec h <+: st.contentsAfter thread dec (history thread (call ++ after) f) ∧
      (∀ m late, m.pulls? n = some late → ((run thread past t.2).apply thread m).1 =
        Stream.dueItem late (st.isOverAfter dec h) ((st.contentsAfter thread dec h).drop rs.length)) ∧
      ∀ pulls, (∀ m ∈ pulls, (m.pulls? n).isSome = true) →
        (st.contentsAfter thread dec h).length ≤ rs.length + pulls.length →
          yielded n (history thread (past ++ pulls) t.2) = st.contentsAfter thread dec h := by
  intro f returns call g n t st
  have hs : (start x : Floor α ε).Sound ((before ++ (call ++ after)).countP Move.opensPort + 0) :=
    sound_call hx _ rfl hfew
  rw [countP_opens_append] at hs
  have hbefore := hs.run thread
  rw [countP_opens_append] at hbefore
  obtain ⟨hanswer, hflows⟩ := flows_call thread dec hbefore hopen hentry
  refine ⟨hanswer, ?_⟩
  intro past future hafter hstops h rs
  have hdone : run thread call f = t.2 := run_append thread _ [returns] f
  have hsound := hbefore.run thread
  rw [hafter, countP_opens_append, hdone] at hsound
  have hlater := hflows.flows_run rfl hdec hsound hstops
  rw [List.nil_append] at hlater
  have hh : h = history thread call f ++ history thread past t.2 := by
    rw [← hdone]
    exact history_append thread call past f
  change Flows thread st dec n (run thread past t.2) (history thread call f ++ _) rs at hlater
  rw [← hh] at hlater
  refine ⟨hlater.isPrefix, ?_, fun m late hm => (hlater.pull rfl hdec hm).1, ?_⟩
  · have hwhole : history thread (call ++ after) f =
        h ++ history thread future (run thread (call ++ past) f) := by
      rw [hafter, ← List.append_assoc]
      exact history_append thread (call ++ past) future f
    rw [hwhole]
    exact contents_history st.port.id h _
  · intro pulls hpulls hlength
    have hall := hlater.pull_all rfl hdec hpulls hlength
    rw [history_append, yielded, List.filterMap_append]
    exact hall

/-- A delivery before the entry returns, a shutdown, and a pull that gives the delivery. -/
theorem run_yields_after_shutdown : ∃ x, Exchange.create .standard = .ok x ∧
    let codec : Codec Value Unit :=
      ⟨fun v => .ok (.success v), fun _ => false, fun _ => .ok (.malformed "")⟩
    let during : List (Move Value Unit) := [.deliver ⟨1⟩ (.bool true)]
    let past : List (Move Value Unit) := [.step (.act .shutdown) rfl]
    let f := run none [] (start x)
    let t := (run none (.beginStream "task" codec :: during) f).apply none
      (.finish f.running.length (.ok ⟨[]⟩))
    (∀ v, codec.decode v = .ok (.success v)) ∧
      f.streamed? (.beginStream "task" codec) = some ⟨⟨1⟩, PortNames.name "task" 0⟩ ∧
      (∀ ended, .finish f.running.length ended ∉ during) ∧
      ([] ++ during ++ past).countP Move.opensPort + 2 < PortId.supply ∧
      (∃ text, t.1 =
        .stream 0 ⟨⟨⟨1⟩, PortNames.name "task" 0⟩, codec, "task", none, false⟩ text) ∧
      ((run none past t.2).apply none (.step (.next 0) rfl)).1 = .result (.ok (.bool true)) := by
  obtain ⟨x, hx⟩ : ∃ x, Exchange.create .standard = .ok x := ⟨_, rfl⟩
  refine ⟨x, hx, ?_⟩
  intro codec during past f t
  have hdec : ∀ v, codec.decode v = .ok (.success v) := fun _ => rfl
  have hopen : f.streamed? (.beginStream "task" codec) = some ⟨⟨1⟩, PortNames.name "task" 0⟩ := by
    cases hx
    rfl
  have hentry : ∀ ended, .finish f.running.length ended ∉ during := by
    simp [during]
  have hfew : ([] ++ during ++ past).countP Move.opensPort + 2 < PortId.supply := by decide
  obtain ⟨hanswer, hyields⟩ := run_yields hx none [] during past "task" codec ⟨[]⟩ hdec hopen hentry hfew
  obtain ⟨-, -, hpull, -⟩ := hyields past [] (List.append_nil past).symm (by simp [past, Move.stops])
  have hnext := hpull (.step (.next 0) rfl) .wouldBlock
  refine ⟨hdec, hopen, hentry, hfew, ?_, ?_⟩
  · cases hx
    exact hanswer
  · cases hx
    exact hnext rfl

end Floor

end CallExchange
