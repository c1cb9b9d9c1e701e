import CallExchange.Proofs.Wakeups

set_option autoImplicit false

/-!
# The queue of reverse calls

What was accepted on the port for reverse calls was taken from it or is queued still: in the same
order, and each message once.
-/

namespace CallExchange

variable {α ε : Type}

namespace Move

/-- The reverse call that a move handed in, if it was accepted. -/
def handsIn? : Move α ε × Answer α ε → Option Value
  | (m, .reply (.delivery d)) => if d = .dropped then none else m.postTo? Exchange.reversePort
  | _ => none

def takesOut? : Move α ε × Answer α ε → Option Value
  | (.step (.act .takeReverse) _, .reply (.value v)) => v
  | _ => none

variable {m : Move α ε} {a : Answer α ε}

theorem handsIn?_of_postTo? (h : m.postTo? Exchange.reversePort = none) :
    handsIn? (m, a) = none := by
  unfold handsIn?
  split
  · rename_i heq
    cases heq
    rw [h, ite_self]
  · rfl

theorem takesOut?_of_takesReverse (h : m.takesReverse = false) : takesOut? (m, a) = none := by
  unfold takesOut?
  split
  · rename_i heq
    cases heq
    cases h
  · rfl

end Move

/-- The reverse calls that were accepted, and those that were taken, one after the other. -/
def handedIn (h : List (Move α ε × Answer α ε)) : List Value := h.filterMap Move.handsIn?
def takenOut (h : List (Move α ε × Answer α ε)) : List Value := h.filterMap Move.takesOut?

theorem handedIn_cons (e : Move α ε × Answer α ε) (h : List (Move α ε × Answer α ε)) :
    handedIn (e :: h) = (Move.handsIn? e).toList ++ handedIn h := by
  rw [handedIn, List.filterMap_cons]
  cases Move.handsIn? e <;> rfl

theorem takenOut_cons (e : Move α ε × Answer α ε) (h : List (Move α ε × Answer α ε)) :
    takenOut (e :: h) = (Move.takesOut? e).toList ++ takenOut h := by
  rw [takenOut, List.filterMap_cons]
  cases Move.takesOut? e <;> rfl

theorem takenOut_append (h h' : List (Move α ε × Answer α ε)) :
    takenOut (h ++ h') = takenOut h ++ takenOut h' := List.filterMap_append

namespace Exchange

def reverseQueue (x : Exchange) : List Value := (x.inbox reversePort).queue

variable {x : Exchange}

theorem takeReverse_fst (x : Exchange) : x.takeReverse.1 = x.reverseQueue.head? := by
  rw [takeReverse, Inbox.tryReceive, reverseQueue]
  cases (x.inbox reversePort).queue <;> rfl

theorem reverseQueue_takeReverse (x : Exchange) :
    x.takeReverse.2.reverseQueue = x.reverseQueue.tail := by
  rw [takeReverse, reverseQueue]
  dsimp only
  rw [inbox_setInbox]
  split
  · exact queue_tryReceive _
  · rename_i hno
    have hempty : x.inbox reversePort = ⟨[], true⟩ := by
      refine x.inbox_of_not_hasInbox _ ?_
      simpa using hno
    rw [reverseQueue, hempty]
    rfl

theorem reverseQueue_post (hx : x.Consistent) (p : PortId) (v : Value) :
    (x.post p v).2.reverseQueue =
      x.reverseQueue ++ if p = reversePort ∧ (x.post p v).1 ≠ .dropped then [v] else [] := by
  by_cases hp : p = reversePort
  · subst hp
    have hfst := hx.post_fst reversePort v
    rw [hx.reverse_not_pending, hx.open_iff] at hfst
    rw [reverseQueue, Floor.inbox_post hx hx.reverse_hasInbox, hfst, Inbox.push, reverseQueue]
    cases (x.inbox reversePort).closed <;> simp
  · rw [if_neg fun h => hp h.1, List.append_nil]
    have hchange := (x.post_posted p v).inboxChange (p := reversePort)
    unfold reverseQueue
    generalize (x.post p v).2.inbox reversePort = b at hchange
    cases hchange with
    | same => rfl
    | queued => exact absurd rfl hp
    | closed _ ho => cases ho

end Exchange

namespace Floor

variable {f f' : Floor α ε} {m : Move α ε} {ms : List (Move α ε)} {n : Nat}
  {thread : Option String}

theorem handsIn?_post {p : PortId} {v : Value} (hm : m.post? = some (p, v)) (d : Delivery) :
    (Move.handsIn? (m, (.reply (.delivery d) : Answer α ε))).toList =
      if p = Exchange.reversePort ∧ d ≠ .dropped then [v] else [] := by
  rw [Move.handsIn?, Move.postTo?, hm, Option.bind_some]
  by_cases hd : d = .dropped <;> by_cases hp : p = Exchange.reversePort <;> simp [hd, hp]

theorem takesReverse_of_post? {d : PortId × Value} (hm : m.post? = some d) :
    m.takesReverse = false := by
  unfold Move.post? at hm
  split at hm <;> first | rfl | cases hm

theorem handsIn?_of_livePost (hm : f.livePost m = false) (thread : Option String) :
    Move.handsIn? (m, (f.apply thread m).1) = none := by
  cases hpost : m.post? with
  | none => exact Move.handsIn?_of_postTo? (by rw [Move.postTo?, hpost]; rfl)
  | some d =>
    rw [livePost, hpost, Option.isSome_some, Bool.true_and, Bool.not_eq_false'] at hm
    rcases apply_post_gone thread hpost hm with ha | ha
    · rw [ha]
      rfl
    · rw [ha]
      rfl

theorem takesReverse_eq (hm : m.takesReverse = true) : m = .step (.act .takeReverse) rfl := by
  unfold Move.takesReverse at hm
  split at hm
  · rfl
  · cases hm

theorem apply_takeReverse_gone (thread : Option String) (hgone : f.exchange.isGone = true) :
    f.apply thread (.step (.act .takeReverse) rfl) = (.reply .exchangeGone, f) := by
  change f.turn (f.session.settle (f.session.stage.whileUp fun x =>
    f.session.stage.on x.takeReverse .value) Session.replied) = _
  rw [Stage.whileUp, if_pos (show f.session.stage.exchange.isGone = true from hgone)]
  rfl

theorem Sound.not_usesInbox (hs : f.Sound n) (hm : m.takesReverse = false) :
    ¬ f.UsesInbox m Exchange.reversePort := by
  rintro (⟨ht, -⟩ | ⟨q, h, -, hq, -, hp⟩)
  · rw [hm] at ht
    cases ht
  · exact (hs.ports q h _ hq hp).2 rfl

/-- What one move adds at one end of the queue and takes away at the other. -/
theorem reverseQueue_apply (hs : f.Sound (m.opensPort.toNat + n)) (thread : Option String) :
    f.exchange.reverseQueue ++ (Move.handsIn? (m, (f.apply thread m).1)).toList =
      (Move.takesOut? (m, (f.apply thread m).1)).toList ++
        (f.apply thread m).2.exchange.reverseQueue := by
  rcases f.livePost_cases m with hquiet | ⟨p, v, hpost, hlive⟩
  · rw [handsIn?_of_livePost hquiet, Option.toList_none, List.append_nil]
    by_cases htake : m.takesReverse = true
    · cases takesReverse_eq htake
      cases hgone : f.exchange.isGone with
      | true =>
        rw [apply_takeReverse_gone thread hgone]
        rfl
      | false =>
        rw [show f.apply thread (.step (.act .takeReverse) rfl) = _ from
          Stage.apply_takeReverse thread hgone f]
        change _ = f.exchange.takeReverse.1.toList ++ f.exchange.takeReverse.2.reverseQueue
        rw [Exchange.takeReverse_fst, Exchange.reverseQueue_takeReverse]
        cases f.exchange.reverseQueue <;> rfl
    · have htake := (Bool.not_eq_true _).mp htake
      obtain ⟨ops, he⟩ := hs.effect thread m
      rw [Move.takesOut?_of_takesReverse htake]
      exact (he.runs.keeps_queue hs.consistent (he.fit hs) (he.no_posts hquiet) fun o ho ht =>
        hs.not_usesInbox htake ((he.allowed o ho).usesInbox ht)).symm
  · rw [apply_post thread hpost hlive, handsIn?_post hpost,
      Move.takesOut?_of_takesReverse (takesReverse_of_post? hpost)]
    exact (Exchange.reverseQueue_post hs.consistent p v).symm

/-- What is queued and what is accepted during a run are what is taken during it and what is queued
after it. -/
theorem reverseQueue_run (hs : f.Sound (ms.countP Move.opensPort + n)) (thread : Option String) :
    f.exchange.reverseQueue ++ handedIn (history thread ms f) =
      takenOut (history thread ms f) ++ (run thread ms f).exchange.reverseQueue := by
  induction ms generalizing f with
  | nil => exact List.append_nil _
  | cons m ms ih =>
    rw [countP_opens_cons] at hs
    have hstep := reverseQueue_apply hs thread
    calc f.exchange.reverseQueue ++ handedIn (history thread (m :: ms) f)
        = (f.exchange.reverseQueue ++ (Move.handsIn? (m, (f.apply thread m).1)).toList) ++
            handedIn (history thread ms (f.apply thread m).2) := by
          rw [history, handedIn_cons, List.append_assoc]
      _ = (Move.takesOut? (m, (f.apply thread m).1)).toList ++
            ((f.apply thread m).2.exchange.reverseQueue ++
              handedIn (history thread ms (f.apply thread m).2)) := by
          rw [hstep, List.append_assoc]
      _ = takenOut (history thread (m :: ms) f) ++
            (run thread (m :: ms) f).exchange.reverseQueue := by
          rw [ih (hs.apply thread), history, takenOut_cons, List.append_assoc]
          rfl

theorem reverseQueue_start {s : Settings} {x : Exchange} (hx : Exchange.create s = .ok x) :
    (start x : Floor α ε).exchange.reverseQueue = [] := by
  obtain ⟨-, rfl⟩ := Exchange.create_eq hx
  rfl

/-- As long as nothing is accepted, no more is taken than is queued. -/
theorem takenOut_le (hs : f.Sound (ms.countP Move.opensPort + n)) (thread : Option String)
    (hquiet : handedIn (history thread ms f) = []) :
    takenOut (history thread ms f) <+: f.exchange.reverseQueue := by
  have hrun := reverseQueue_run hs thread
  rw [hquiet, List.append_nil] at hrun
  exact ⟨_, hrun.symm⟩

end Floor

end CallExchange
