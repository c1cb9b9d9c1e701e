import CallExchange.Inbox
import Mathlib.Data.List.Basic

set_option autoImplicit false

/-!
# Inboxes over their histories

What an inbox holds is what it has accepted and not yet given away, in the order in which it was
accepted. To say so of each sender, the values in an inbox are kept together with those who sent
them; the inbox itself knows nothing of senders.
-/

namespace CallExchange

namespace Inbox

variable {ι : Type}

def Command.accepted (c : Command) (a : Answer) : List Value :=
  match c, a with
  | .push v, .flag true => [v]
  | _, _ => []

def Answer.received : Answer → List Value
  | .value v => v.toList
  | _ => []

/-- The values that a command takes out: the one that a reader is given, or all that are
discarded. -/
def Command.removed (c : Command) (b : Inbox) : List Value :=
  match c with
  | .discard => b.queue
  | c => (b.apply c).1.received

theorem Command.removed_receiveWithin (t : Timeout) (b : Inbox) :
    (receiveWithin t).removed b = (b.apply (.receiveWithin t)).1.received := rfl

def Command.isClose : Command → Bool
  | .close => true
  | _ => false

theorem apply_noDeadline (b : Inbox) {t : Timeout} (h : t.noDeadline = true) :
    b.apply (.receiveWithin t) = (.unwound .noDeadline, b) := by
  simp only [apply, receiveWithin, h]
  rfl

theorem apply_withDeadline (b : Inbox) {t : Timeout} (h : t.noDeadline = false) :
    b.apply (.receiveWithin t) = received .timedOut b.receive := by
  simp only [apply, receiveWithin, h]
  rfl

theorem apply_push (b : Inbox) (v : Value) : (b.apply (.push v)).1 = .flag !b.closed := by
  obtain ⟨vs, _ | _⟩ := b <;> rfl

/-- What leaves the queue leaves it from the front, and what comes in is put at its end. -/
theorem queue_apply (b : Inbox) (c : Command) :
    ∃ rest, b.queue = c.removed b ++ rest ∧
      (b.apply c).2.queue = rest ++ c.accepted (b.apply c).1 := by
  cases c with
  | push v =>
    obtain ⟨vs, _ | _⟩ := b
    · exact ⟨vs, rfl, rfl⟩
    · exact ⟨vs, rfl, (List.append_nil vs).symm⟩
  | tryReceive => obtain ⟨_ | ⟨v, vs⟩, _ | _⟩ := b <;> exact ⟨_, rfl, (List.append_nil _).symm⟩
  | receive => obtain ⟨_ | ⟨v, vs⟩, _ | _⟩ := b <;> exact ⟨_, rfl, (List.append_nil _).symm⟩
  | receiveWithin t =>
    cases ht : t.noDeadline with
    | true =>
      rw [Command.removed_receiveWithin, apply_noDeadline b ht]
      exact ⟨b.queue, rfl, (List.append_nil _).symm⟩
    | false =>
      rw [Command.removed_receiveWithin, apply_withDeadline b ht]
      obtain ⟨_ | ⟨v, vs⟩, _ | _⟩ := b <;> exact ⟨_, rfl, (List.append_nil _).symm⟩
  | close => exact ⟨b.queue, rfl, (List.append_nil _).symm⟩
  | discard => exact ⟨[], (List.append_nil _).symm, rfl⟩

theorem closed_apply (b : Inbox) (c : Command) :
    (b.apply c).2.closed = (b.closed || c.isClose) := by
  cases c with
  | push v => obtain ⟨vs, _ | _⟩ := b <;> rfl
  | tryReceive | receive => obtain ⟨_ | ⟨v, vs⟩, _ | _⟩ := b <;> rfl
  | receiveWithin t =>
    cases ht : t.noDeadline with
    | true =>
      rw [apply_noDeadline b ht]
      exact (Bool.or_false _).symm
    | false =>
      rw [apply_withDeadline b ht]
      obtain ⟨_ | ⟨v, vs⟩, _ | _⟩ := b <;> rfl
  | close => exact (Bool.or_true _).symm
  | discard => exact (Bool.or_false _).symm

theorem received_eq_ended {none : Answer} (hn : none ≠ .value .none) (b : Inbox) :
    (received none b.receive).1 = .value .none ↔ b.closed = true ∧ b.queue = [] := by
  obtain ⟨_ | ⟨v, vs⟩, _ | _⟩ := b
  · exact ⟨fun h => absurd h hn, fun h => nomatch h.1⟩
  · exact ⟨fun _ => ⟨rfl, rfl⟩, fun _ => rfl⟩
  · exact ⟨nofun, nofun⟩
  · exact ⟨nofun, nofun⟩

/-- An inbox, and who sent what is in it. -/
structure Tagged (ι : Type) where
  inbox : Inbox
  contents : List (ι × Value)
  values : contents.map Prod.snd = inbox.queue

namespace Tagged

def empty : Tagged ι := ⟨.empty, [], rfl⟩

def apply (q : Tagged ι) (i : ι) (c : Command) : Tagged ι where
  inbox := (q.inbox.apply c).2
  contents := q.contents.drop (c.removed q.inbox).length ++
    (c.accepted (q.inbox.apply c).1).map (i, ·)
  values := by
    obtain ⟨rest, hqueue, hafter⟩ := q.inbox.queue_apply c
    rw [List.map_append, List.map_drop, q.values, hqueue, List.drop_left, hafter, List.map_map]
    exact congrArg _ (List.map_id _)

end Tagged

/-- A command of a run, who gave it, and what it found. -/
structure Event (ι : Type) where
  caller : ι
  command : Command
  before : Tagged ι

namespace Event

def answer (e : Event ι) : Answer := (e.before.inbox.apply e.command).1
def after (e : Event ι) : Tagged ι := e.before.apply e.caller e.command

def accepted (e : Event ι) : List (ι × Value) := (e.command.accepted e.answer).map (e.caller, ·)

def removed (e : Event ι) : List (ι × Value) :=
  e.before.contents.take (e.command.removed e.before.inbox).length

def received (e : Event ι) : List (ι × Value) :=
  e.before.contents.take e.answer.received.length

theorem contents_after (e : Event ι) :
    e.before.contents ++ e.accepted = e.removed ++ e.after.contents := by
  change _ = e.before.contents.take _ ++ (e.before.contents.drop _ ++ e.accepted)
  rw [← List.append_assoc, List.take_append_drop]

theorem values_removed (e : Event ι) :
    e.removed.map Prod.snd = e.command.removed e.before.inbox := by
  obtain ⟨rest, hqueue, -⟩ := e.before.inbox.queue_apply e.command
  rw [removed, List.map_take, e.before.values]
  exact (congrArg (List.take _) hqueue).trans List.take_left

theorem received_cases (e : Event ι) :
    e.received = e.removed ∧ e.answer.received = e.command.removed e.before.inbox ∨
      e.received = [] ∧ e.answer.received = [] := by
  unfold received removed answer
  cases e.command with
  | discard => exact .inr ⟨rfl, rfl⟩
  | push | tryReceive | receive | receiveWithin | close => exact .inl ⟨rfl, rfl⟩

theorem values_received (e : Event ι) : e.received.map Prod.snd = e.answer.received := by
  obtain ⟨hreceived, hremoved⟩ | ⟨hreceived, hnone⟩ := e.received_cases
  · rw [hreceived, hremoved, e.values_removed]
  · rw [hreceived, hnone]
    rfl

theorem received_sublist (e : Event ι) : e.received.Sublist e.removed := by
  obtain ⟨hreceived, -⟩ | ⟨hreceived, -⟩ := e.received_cases
  · rw [hreceived]
  · rw [hreceived]
    exact List.nil_sublist _

def closed (e : Event ι) : Bool :=
  match e.command, e.answer with
  | .close, .flag wasOpen => wasOpen
  | _, _ => false

theorem closed_eq (e : Event ι) : e.closed = (e.command.isClose && !e.before.inbox.closed) := by
  unfold closed answer
  cases e.command with
  | close => rfl
  | push | tryReceive | receive | receiveWithin | discard => rfl

end Event

def events : List (ι × Command) → Tagged ι → List (Event ι)
  | [], _ => []
  | (i, c) :: cs, q => ⟨i, c, q⟩ :: events cs (q.apply i c)

def Tagged.applyAll (q : Tagged ι) (cs : List (ι × Command)) : Tagged ι :=
  cs.foldl (fun q c => q.apply c.1 c.2) q

variable (cs : List (ι × Command)) (q : Tagged ι)

theorem Tagged.inbox_applyAll : (q.applyAll cs).inbox = q.inbox.applyAll (cs.map Prod.snd) := by
  induction cs generalizing q with
  | nil => rfl
  | cons c cs ih => exact ih (q.apply c.1 c.2)

theorem contents_events :
    q.contents ++ (events cs q).flatMap Event.accepted =
      (events cs q).flatMap Event.removed ++ (q.applyAll cs).contents := by
  induction cs generalizing q with
  | nil => exact List.append_nil _
  | cons c cs ih =>
    obtain ⟨i, c⟩ := c
    have hstep := Event.contents_after ⟨i, c, q⟩
    change q.contents ++ (Event.accepted ⟨i, c, q⟩ ++ _) =
      (Event.removed ⟨i, c, q⟩ ++ _) ++ ((q.apply i c).applyAll cs).contents
    rw [← List.append_assoc, hstep, List.append_assoc, List.append_assoc]
    exact congrArg _ (ih (q.apply i c))

theorem closed_events :
    (q.applyAll cs).inbox.closed = (q.inbox.closed || (events cs q).any (·.command.isClose)) := by
  induction cs generalizing q with
  | nil => exact (Bool.or_false _).symm
  | cons c cs ih =>
    obtain ⟨i, c⟩ := c
    refine (ih (q.apply i c)).trans ?_
    change ((q.inbox.apply c).2.closed || _) = (q.inbox.closed || (c.isClose || _))
    rw [closed_apply, Bool.or_assoc]

theorem received_events_sublist :
    ((events cs q).flatMap Event.received).Sublist ((events cs q).flatMap Event.removed) := by
  induction cs generalizing q with
  | nil => exact .slnil
  | cons c cs ih => exact (Event.received_sublist ⟨c.1, c.2, q⟩).append (ih (q.apply c.1 c.2))

theorem countP_closed :
    (events cs q).countP Event.closed =
      if q.inbox.closed then 0 else ((events cs q).any (·.command.isClose)).toNat := by
  induction cs generalizing q with
  | nil => split <;> rfl
  | cons c cs ih =>
    obtain ⟨i, c⟩ := c
    have hafter : (q.apply i c).inbox.closed = (q.inbox.closed || c.isClose) :=
      q.inbox.closed_apply c
    change (Event.mk i c q :: events cs (q.apply i c)).countP Event.closed =
      if q.inbox.closed then 0
      else (c.isClose || (events cs (q.apply i c)).any (·.command.isClose)).toNat
    rw [List.countP_cons, ih, hafter, Event.closed_eq]
    cases q.inbox.closed <;> cases c.isClose <;> rfl

theorem flatMap_map_snd {f : Event ι → List (ι × Value)} {g : Event ι → List Value}
    (h : ∀ e, (f e).map Prod.snd = g e) (past : List (Event ι)) :
    (past.flatMap f).map Prod.snd = past.flatMap g := by
  rw [List.map_flatMap]
  exact congrArg past.flatMap (funext h)

/-- What an inbox holds and answers, told by its past. -/
structure Follows [DecidableEq ι] (past : List (Event ι)) (b : Inbox) : Prop where
  /-- Nothing is lost, nothing comes twice, and nothing overtakes. -/
  kept : (past.flatMap Event.accepted).map Prod.snd =
    (past.flatMap fun e => e.command.removed e.before.inbox) ++ b.queue
  length : (past.flatMap Event.accepted).length =
    (past.flatMap fun e => e.command.removed e.before.inbox).length + b.length
  isEmpty : b.isEmpty = true ↔ (past.flatMap Event.accepted).map Prod.snd =
    past.flatMap fun e => e.command.removed e.before.inbox
  push : ∀ v, (b.apply (.push v)).1 = .flag !past.any (·.command.isClose)
  close : (b.apply .close).1 = .flag !past.any (·.command.isClose)
  close_keeps : (b.apply .close).2.queue = b.queue
  closed_once : past.countP Event.closed = (past.any (·.command.isClose)).toNat
  ended : (b.apply .receive).1 = .value none ↔
    past.any (·.command.isClose) = true ∧ b.isEmpty = true
  ended_within : ∀ t, t.noDeadline = false → ((b.apply (.receiveWithin t)).1 = .value none ↔
    past.any (·.command.isClose) = true ∧ b.isEmpty = true)
  no_deadline : ∀ t, t.noDeadline = true → b.apply (.receiveWithin t) = (.unwound .noDeadline, b)
  discard : (b.apply .discard).1 = .count b.length ∧ (b.apply .discard).2.isEmpty = true
  /-- What the readers were given, with those who sent it. -/
  received : (past.flatMap Event.received).map Prod.snd = past.flatMap (·.answer.received)
  senders : ∀ i, ((past.flatMap Event.received).filter (·.1 = i)).Sublist
    ((past.flatMap Event.accepted).filter (·.1 = i))

/-- An inbox is a queue that can be closed: whoever gives whatever commands, what it has accepted is
what has been taken out and then what is left in it, and each sender's values are received in the
order in which they were accepted. -/
theorem closable_queue [DecidableEq ι] (cs : List (ι × Command)) :
    Follows (events cs .empty) (applyAll .empty (cs.map Prod.snd)) := by
  have hbox : (Tagged.empty.applyAll cs).inbox = applyAll .empty (cs.map Prod.snd) :=
    Tagged.inbox_applyAll cs (.empty : Tagged ι)
  have hcontents : (events cs .empty).flatMap Event.accepted =
      (events cs .empty).flatMap Event.removed ++ (Tagged.empty.applyAll cs).contents :=
    contents_events cs .empty
  have hclosed : (Tagged.empty.applyAll cs).inbox.closed =
      (events cs .empty).any (·.command.isClose) := closed_events cs .empty
  have honce : (events cs .empty).countP Event.closed =
      ((events cs .empty).any (·.command.isClose)).toNat := countP_closed cs .empty
  have hreceived := received_events_sublist cs (.empty : Tagged ι)
  have hvalues := (Tagged.empty.applyAll cs).values
  rw [hbox] at hclosed hvalues
  generalize events cs .empty = past at *
  generalize applyAll .empty (cs.map Prod.snd) = b at *
  have hkept : (past.flatMap Event.accepted).map Prod.snd =
      (past.flatMap fun e => e.command.removed e.before.inbox) ++ b.queue := by
    rw [hcontents, List.map_append, hvalues, flatMap_map_snd Event.values_removed]
  have hended : ∀ none : Answer, none ≠ .value .none →
      ((received none b.receive).1 = .value .none ↔
        past.any (·.command.isClose) = true ∧ b.isEmpty = true) := by
    intro none hn
    rw [received_eq_ended hn, hclosed, isEmpty, List.isEmpty_iff]
  refine ⟨hkept, ?_, ?_, ?_, ?_, rfl, honce, hended _ nofun, ?_, fun t => apply_noDeadline _,
    ⟨rfl, rfl⟩, flatMap_map_snd Event.values_received _, ?_⟩
  · have hlength := congrArg List.length hkept
    rwa [List.length_map, List.length_append] at hlength
  · rw [hkept, List.append_right_eq_self]
    exact List.isEmpty_iff
  · intro v
    rw [apply_push, hclosed]
  · rw [← hclosed]
    rfl
  · intro t ht
    rw [apply_withDeadline _ ht]
    exact hended _ nofun
  · intro i
    -- the readers got some of what was taken out, which is where the accepted values start
    refine List.Sublist.filter _ (hreceived.trans ?_)
    rw [hcontents]
    exact List.sublist_append_left _ _

/-- A wait whose deadline is past the end of the clock is not told of the end of an inbox that is
closed and empty: it aborts before it looks. -/
theorem end_not_told_without_deadline :
    let b := applyAll .empty [.close]
    let t : Timeout := ⟨.zero, .longest⟩
    b.closed = true ∧ b.isEmpty = true ∧ t.noDeadline = true ∧
      (b.apply (.receiveWithin t)).1 = .unwound .noDeadline ∧
      ¬ ∀ t, (b.apply (.receiveWithin t)).1 = .value none ↔ b.closed = true ∧ b.isEmpty = true := by
  intro b t
  have ht : t.noDeadline = true := Timeout.noDeadline_longest (by decide)
  have haborts := congrArg Prod.fst (apply_noDeadline b ht)
  refine ⟨rfl, rfl, ht, haborts, fun hall => ?_⟩
  have hend := (hall t).2 ⟨rfl, rfl⟩
  rw [haborts] at hend
  cases hend

end Inbox

end CallExchange
