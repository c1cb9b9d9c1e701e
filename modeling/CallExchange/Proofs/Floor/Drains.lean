import CallExchange.Proofs.Floor.ReverseQueue

set_option autoImplicit false

/-!
# Drains among other moves

A drain takes the queued reverse calls one by one and makes each of them before it takes the next,
until none is left or one fails. Between its own moves there may be any others: those of the
callbacks that it runs, other drains included, and those of other threads. What it has taken is a
part of what was taken, in the same order, and what it leaves behind is what was queued.
-/

namespace CallExchange

variable {α ε : Type}

def Move.take : Move α ε := .step (.act .takeReverse) rfl

/-- How a drain ends: with nothing left, with a call that was refused, or in a callback that
aborts. -/
inductive DrainEnd where
  | emptied
  | refused (e : Fault)
  | aborted (p : Panic)

namespace Floor

/-- A drain takes `v`, and the callback that it names is started as code number `i`. -/
inductive Starts (thread : Option String) (f : Floor α ε) (v : Value) :
    List (Move α ε) → Nat → Prop where
  | intro (before inside : List (Move α ε))
      (htake : (f.apply thread .take).1 = .reply (.value (some v)))
      (hbegin : ((run thread (.take :: before) f).apply thread (.beginCallback v)).1 =
        .reply .nothing) :
      Starts thread f v (.take :: before ++ .beginCallback v :: inside)
        (run thread (.take :: before) f).running.length

/-- A drain in the course of some moves, which has run the calls `own` so far, each to its end. -/
inductive Draining (thread : Option String) (f : Floor α ε) :
    List (Move α ε) → List Value → Prop where
  | start : Draining thread f [] []
  | aside {ms : List (Move α ε)} {own : List Value} (h : Draining thread f ms own)
      (m : Move α ε) : Draining thread f (ms ++ [m]) own
  | ran {ms call : List (Move α ε)} {own : List Value} {v : Value} {i : Nat} {b : Buffer}
      (h : Draining thread f ms own) (hcall : Starts thread (run thread ms f) v call i)
      (hdone : ((run thread (ms ++ call) f).apply thread (.finish i (.ok b))).1 = .reply .done) :
      Draining thread f (ms ++ call ++ [.finish i (.ok b)]) (own ++ [v])

inductive Drained (thread : Option String) (f : Floor α ε) :
    List (Move α ε) → List Value → DrainEnd → Prop where
  | emptied {ms : List (Move α ε)} {own : List Value} (h : Draining thread f ms own)
      (htake : ((run thread ms f).apply thread .take).1 = .reply (.value none)) :
      Drained thread f (ms ++ [.take]) own .emptied
  | refused {ms before : List (Move α ε)} {own : List Value} {v : Value} {e : Fault}
      (h : Draining thread f ms own)
      (htake : ((run thread ms f).apply thread .take).1 = .reply (.value (some v)))
      (hbegin : ((run thread (ms ++ .take :: before) f).apply thread (.beginCallback v)).1 =
        .reply (.fault e)) :
      Drained thread f (ms ++ .take :: before ++ [.beginCallback v]) (own ++ [v]) (.refused e)
  | aborted {ms call : List (Move α ε)} {own : List Value} {v : Value} {i : Nat} {p : Panic}
      (h : Draining thread f ms own) (hcall : Starts thread (run thread ms f) v call i)
      (hover : ((run thread (ms ++ call) f).apply thread (.finish i (.error p))).1 = .unwound p) :
      Drained thread f (ms ++ call ++ [.finish i (.error p)]) (own ++ [v]) (.aborted p)

variable {f : Floor α ε} {ms ms' call : List (Move α ε)} {own : List Value} {v : Value} {i : Nat}
  {e : Fault} {p : Panic} {result : DrainEnd} {thread : Option String}

theorem takenOut_take (htake : (f.apply thread .take).1 = .reply (.value (some v)))
    (rest : List (Move α ε)) : takenOut (history thread (.take :: rest) f) =
      v :: takenOut (history thread rest (f.apply thread .take).2) := by
  rw [history, takenOut_cons, htake]
  rfl

theorem Starts.takenOut_eq (h : Starts thread f v call i) :
    ∃ vs, takenOut (history thread call f) = v :: vs := by
  obtain ⟨before, inside, htake, -⟩ := h
  exact ⟨_, takenOut_take htake _⟩

theorem concat_sublist {vs : List Value} (h : own.Sublist (takenOut (history thread ms f)))
    (hcall : takenOut (history thread ms' (run thread ms f)) = v :: vs) :
    (own ++ [v]).Sublist (takenOut (history thread (ms ++ ms') f)) := by
  rw [history_append, takenOut_append, hcall]
  exact h.append (List.singleton_sublist.2 List.mem_cons_self)

theorem sublist_aside (h : own.Sublist (takenOut (history thread ms f))) (ms' : List (Move α ε)) :
    own.Sublist (takenOut (history thread (ms ++ ms') f)) := by
  rw [history_append, takenOut_append]
  exact h.trans (List.sublist_append_left _ _)

theorem Draining.sublist (h : Draining thread f ms own) :
    own.Sublist (takenOut (history thread ms f)) := by
  induction h with
  | start => exact List.Sublist.refl _
  | aside _ m ih => exact sublist_aside ih [m]
  | ran _ hcall _ ih =>
    obtain ⟨vs, hvs⟩ := hcall.takenOut_eq
    exact sublist_aside (concat_sublist ih hvs) _

/-- A drain takes its messages in the order in which they are taken at all. -/
theorem Drained.sublist (h : Drained thread f ms own result) :
    own.Sublist (takenOut (history thread ms f)) := by
  cases h with
  | emptied h _ => exact sublist_aside h.sublist _
  | refused h htake _ => exact sublist_aside (concat_sublist h.sublist (takenOut_take htake _)) _
  | aborted h hcall _ =>
    obtain ⟨vs, hvs⟩ := hcall.takenOut_eq
    exact sublist_aside (concat_sublist h.sublist hvs) _

theorem reverseQueue_of_emptied (htake : (f.apply thread .take).1 = .reply (.value none)) :
    (f.apply thread .take).2.exchange.reverseQueue = [] := by
  cases hgone : f.exchange.isGone with
  | true =>
    rw [show f.apply thread .take = _ from apply_takeReverse_gone thread hgone] at htake
    cases htake
  | false =>
    rw [show f.apply thread .take = _ from Stage.apply_takeReverse thread hgone f] at htake ⊢
    have hnone : f.exchange.takeReverse.1 = none := Reply.value.inj (Answer.reply.inj htake)
    rw [Exchange.takeReverse_fst, List.head?_eq_none_iff] at hnone
    change f.exchange.takeReverse.2.reverseQueue = []
    rw [Exchange.reverseQueue_takeReverse, hnone]
    rfl

theorem beginCallback_refused
    (h : (f.apply thread (.beginCallback v)).1 = .reply (.fault e)) :
    f.exchange.callbacks.read v = .error e ∧ (f.apply thread (.beginCallback v)).2 =
      f.put ((f.exchange.record .callbackFailed).note (.reverseCallFailed e)) := by
  change (f.beginCallback v).1 = _ at h
  change _ ∧ (f.beginCallback v).2 = _
  unfold beginCallback at h ⊢
  dsimp only at h ⊢
  split at h
  · cases h
  · rename_i hlive
    rw [if_neg hlive]
    cases hread : f.exchange.callbacks.read v with
    | error e' =>
      rw [show f.session.exchange.callbacks.read v = _ from hread] at h ⊢
      cases h
      exact ⟨rfl, rfl⟩
    | ok call =>
      rw [show f.session.exchange.callbacks.read v = _ from hread] at h
      cases h

/-- Code that aborts into whoever called it was a callback, and its end changes nothing. -/
theorem finish_aborted (h : (f.apply thread (.finish i (.error p))).1 = .unwound p) :
    (f.apply thread (.finish i (.error p))).2 = { f with running := f.running.set i none } := by
  change (finish thread i (.error p) f).1 = _ at h
  change (finish thread i (.error p) f).2 = _
  unfold finish at h ⊢
  split at h
  · cases h
  · rename_i r _
    cases r with
    | async | stream | sync => cases h
    | callback => rfl

/-- What is left by a drain. One that ends well has found the queue empty. One that is refused a
call has started nothing for it, and a callback that aborts into it changes nothing any more: what
was queued at that moment stays queued. -/
def LeftBy (thread : Option String) (f : Floor α ε) (ms : List (Move α ε)) (own : List Value) :
    DrainEnd → Prop
  | .emptied => (run thread ms f).exchange.reverseQueue = []
  | .refused e => ∃ before v, ms = before ++ [.beginCallback v] ∧ own.getLast? = some v ∧
      (run thread before f).exchange.callbacks.read v = .error e ∧
      (run thread ms f).running = (run thread before f).running ∧
      (run thread ms f).exchange.reverseQueue = (run thread before f).exchange.reverseQueue
  | .aborted p => ∃ before v i, ms = before ++ [.finish i (.error p)] ∧ own.getLast? = some v ∧
      (run thread ms f).exchange = (run thread before f).exchange

theorem run_concat (ms : List (Move α ε)) (m : Move α ε) :
    run thread (ms ++ [m]) f = ((run thread ms f).apply thread m).2 := run_append thread ms [m] f

theorem Drained.leftBy (h : Drained thread f ms own result) : LeftBy thread f ms own result := by
  cases h with
  | emptied h htake =>
    change (run thread _ f).exchange.reverseQueue = []
    rw [run_concat]
    exact reverseQueue_of_emptied htake
  | refused h htake hbegin =>
    obtain ⟨hread, hput⟩ := beginCallback_refused hbegin
    refine ⟨_, _, rfl, List.getLast?_concat, hread, ?_, ?_⟩
    · rw [run_concat, hput]
      rfl
    · rw [run_concat, hput]
      rfl
  | aborted h hcall hover =>
    refine ⟨_, _, _, rfl, List.getLast?_concat, ?_⟩
    rw [run_concat, finish_aborted hover]
    rfl

end Floor

end CallExchange
