import CallExchange.Proofs.Floor.Drains

set_option autoImplicit false

/-!
# Scripts that hand no reverse call in

A script that never posts to the port for reverse calls, and whose callbacks never do, plays by
moves that do not either. What a call comes to is told apart: it is refused, or its callback is
started, plays and is over.
-/

namespace CallExchange

variable {α ε : Type}

/-- Whether an action of a callback posts to the port for reverse calls, when the ports `kept` have
been kept. -/
def Action.handsIn (kept : List PortId) : Action → Bool
  | .native n _ => kept[n]? = some Exchange.reversePort
  | .post p _ => p = Exchange.reversePort
  | .reverse _ => true
  | _ => false

def Move.Fits (quiet : Bool) (m : Move α ε) : Prop :=
  m.opensPort = false ∧ (quiet = true → m.postTo? Exchange.reversePort = none)

namespace Stage

section Throughout

variable (P : Stage → Action → Prop)

/-- `P` holds of every action that is performed, in the state in which it is, as long as the script
runs, and as long as the calls and drains run that it makes in turn. -/
def scriptThroughout (invoke : Value → Act (Except Fault Unit)) (drain : Act (Except Fault Nat))
    (calls : Value → Stage → Prop) (drains : Stage → Prop) : Script → Stage → Prop
  | [], _ => True
  | a :: rest, st =>
    P st a ∧ (∀ v, a = .invoke v → calls v st) ∧ (a = .drain → drains st) ∧
      ∀ r st', run invoke drain none a st = .returned r st' →
        scriptThroughout invoke drain calls drains rest (st'.see (.reply r))

def drainThroughout (invoke : Value → Act (Except Fault Unit)) (calls : Value → Stage → Prop) :
    Nat → Stage → Prop
  | 0, _ => True
  | bound + 1, st => ∀ v x, st.exchange.takeReverse = (some v, x) →
      calls v (st.put x) ∧ ∀ st', invoke v (st.put x) = .returned (.ok ()) st' →
        drainThroughout invoke calls bound st'

def invokeThroughout : Nat → Value → Stage → Prop
  | 0, _, _ => True
  | bound + 1, v, st => ∀ call, st.exchange.callbacks.read v = .ok call →
      scriptThroughout P (Stage.invoke bound) (drainWith (Stage.invoke bound) bound 0)
        (invokeThroughout bound)
        (drainThroughout (Stage.invoke bound) (invokeThroughout bound) bound)
        call.callable.body.body (st.see (.call call.callable.body.label call.args))

end Throughout

def Quiet (st : Stage) (a : Action) : Prop := a.handsIn st.kept = false

/-- From one state of a stage to another by moves that open nothing and, if they have to be quiet,
hand no reverse call in. Code that is started on the way is over at the end. -/
structure Via (α ε : Type) (quiet : Bool) (thread : Option String) (st st' : Stage) : Prop where
  owners : st'.exchange.owners = st.exchange.owners
  moves : ∀ f : Floor α ε, ∃ ms j, (∀ m ∈ ms, Move.Fits quiet m) ∧
    Floor.run thread ms (f.onStage st) = (f.onStage st').rest j

variable {quiet : Bool} {thread : Option String} {st st' st'' : Stage} {v : Value}
  {call : Invocation Routine}

theorem apply_beginCallback (thread : Option String) (hlive : st.exchange.isGone = false)
    (hread : st.exchange.callbacks.read v = .ok call) (f : Floor α ε) :
    (f.onStage st).apply thread (.beginCallback v) = (.reply .nothing,
      (f.launch .callback).onStage (st.see (.call call.callable.body.label call.args))) := by
  change (f.onStage st).beginCallback v = _
  rw [Floor.beginCallback]
  dsimp only
  rw [if_neg (by rw [show (f.onStage st).session.exchange = st.exchange from rfl, hlive]; simp)]
  rw [show (f.onStage st).session.exchange = st.exchange from rfl, hread]
  rfl

theorem apply_refused (thread : Option String) {e : Fault} (hlive : st.exchange.isGone = false)
    (hread : st.exchange.callbacks.read v = .error e) (f : Floor α ε) :
    (f.onStage st).apply thread (.beginCallback v) = (.reply (.fault e), f.onStage
      (st.put ((st.exchange.record .callbackFailed).note (.reverseCallFailed e)))) := by
  change (f.onStage st).beginCallback v = _
  rw [Floor.beginCallback]
  dsimp only
  rw [if_neg (by rw [show (f.onStage st).session.exchange = st.exchange from rfl, hlive]; simp)]
  rw [show (f.onStage st).session.exchange = st.exchange from rfl, hread]
  rfl

def afterCallback (st : Stage) : Except Panic Buffer → Stage
  | .ok _ => st.put (st.exchange.record .callbackInvoked)
  | .error _ => st

theorem apply_finish (thread : Option String) (st : Stage) (j : Nat) (ended : Except Panic Buffer)
    (f : Floor α ε) :
    (((f.launch .callback).onStage st).rest j).apply thread (.finish f.running.length ended) =
      ((match ended with | .ok _ => .reply .done | .error p => .unwound p),
        (f.onStage (st.afterCallback ended)).rest (j + 1)) := by
  have hfinish := Floor.finish_launched thread (f.onStage st) .callback j ended
  change ((((f.onStage st).launch .callback).rest j).apply thread _) = _
  rw [show f.running.length = (f.onStage st).running.length from rfl, hfinish]
  cases ended <;> rfl

namespace Via

theorem isGone (h : Via α ε quiet thread st st') : st'.exchange.isGone = st.exchange.isGone := by
  rw [Exchange.isGone, Exchange.isGone, h.owners]

theorem refl (st : Stage) : Via α ε quiet thread st st :=
  ⟨rfl, fun f => ⟨[], 0, by simp, (f.onStage st).rest_zero.symm⟩⟩

theorem trans (h : Via α ε quiet thread st st') (h' : Via α ε quiet thread st' st'') :
    Via α ε quiet thread st st'' where
  owners := h'.owners.trans h.owners
  moves f := by
    obtain ⟨ms, j, hms, hrun⟩ := h.moves f
    obtain ⟨ms', j', hms', hrun'⟩ := h'.moves (f.rest j)
    refine ⟨ms ++ ms', j + j', List.forall_mem_append.2 ⟨hms, hms'⟩, ?_⟩
    rw [Floor.run_append, hrun, ← Floor.rest_rest]
    exact hrun'

theorem single (m : Move α ε) (hm : m.Fits quiet)
    (howners : st'.exchange.owners = st.exchange.owners)
    (h : ∀ f : Floor α ε, ((f.onStage st).apply thread m).2 = f.onStage st') :
    Via α ε quiet thread st st' where
  owners := howners
  moves f := by
    refine ⟨[m], 0, List.forall_mem_singleton.2 hm, ?_⟩
    rw [Floor.rest_zero]
    exact h f

theorem see (st : Stage) (e : Event) : Via α ε quiet thread st (st.see e) :=
  single (.see e) ⟨rfl, fun _ => rfl⟩ rfl fun _ => rfl

theorem of_plays (h : Plays α ε thread st st') : Via α ε false thread st st' where
  owners := h.owners
  moves f := by
    obtain ⟨ms, j, hms, hrun⟩ := h.moves f
    rw [List.countP_eq_zero] at hms
    exact ⟨ms, j, fun m hm => ⟨(Bool.not_eq_true _).mp (hms m hm), by simp⟩, hrun⟩

theorem takeReverse (hlive : st.exchange.isGone = false) :
    Via α ε quiet thread st (st.put st.exchange.takeReverse.2) :=
  single .take ⟨rfl, fun _ => rfl⟩ rfl fun f => congrArg Prod.snd (apply_takeReverse thread hlive f)

theorem callback (ended : Except Panic Buffer) (hlive : st.exchange.isGone = false)
    (hread : st.exchange.callbacks.read v = .ok call)
    (h : Via α ε quiet thread (st.see (.call call.callable.body.label call.args)) st') :
    Via α ε quiet thread st (st'.afterCallback ended) where
  owners := by
    cases ended <;> exact h.owners
  moves f := by
    obtain ⟨ms, j, hms, hrun⟩ := h.moves (f.launch .callback)
    refine ⟨.beginCallback v :: ms ++ [.finish f.running.length ended], j + 1, ?_, ?_⟩
    · refine List.forall_mem_append.2 ⟨List.forall_mem_cons.2 ⟨?_, hms⟩,
        List.forall_mem_singleton.2 ?_⟩
      · exact ⟨rfl, fun _ => rfl⟩
      · exact ⟨rfl, fun _ => rfl⟩
    · rw [Floor.run_concat]
      change (Floor.apply thread (Floor.run thread ms ((f.onStage st).apply thread _).2) _).2 = _
      rw [apply_beginCallback thread hlive hread, hrun, apply_finish]

end Via

/-- What comes of a call that is made: it is refused, or its callback plays and then returns or
aborts. -/
inductive Invoked (α ε : Type) (quiet : Bool) (thread : Option String) (v : Value) (st : Stage) :
    Outcome Stage (Except Fault Unit) → Prop where
  | refused {e : Fault} (hread : st.exchange.callbacks.read v = .error e) :
      Invoked α ε quiet thread v st (st.refuse e)
  | ran {call : Invocation Routine} {st' : Stage}
      (hread : st.exchange.callbacks.read v = .ok call)
      (h : Via α ε quiet thread (st.see (.call call.callable.body.label call.args)) st') :
      Invoked α ε quiet thread v st
        (.returned (.ok ()) (st'.put (st'.exchange.record .callbackInvoked)))
  | aborted {call : Invocation Routine} {st' : Stage} {p : Panic}
      (hread : st.exchange.callbacks.read v = .ok call)
      (h : Via α ε quiet thread (st.see (.call call.callable.body.label call.args)) st') :
      Invoked α ε quiet thread v st (.unwound p st')

theorem Invoked.via {o : Outcome Stage (Except Fault Unit)} (h : Invoked α ε quiet thread v st o)
    (hlive : st.exchange.isGone = false) (ho : o.EndsIn st') : Via α ε quiet thread st st' := by
  cases h with
  | refused hread =>
    rw [Outcome.endsIn_returned ho]
    exact .single (.beginCallback v) ⟨rfl, fun _ => rfl⟩ rfl fun f =>
      congrArg Prod.snd (apply_refused thread hlive hread f)
  | ran hread h =>
    rw [Outcome.endsIn_returned ho]
    exact .callback (.ok ⟨[]⟩) hlive hread h
  | @aborted call st' p hread h =>
    rw [Outcome.endsIn_unwound ho]
    exact .callback (.error p) hlive hread h

theorem invoked_of_script {bound : Nat}
    (h : ∀ call st₁, st.exchange.callbacks.read v = .ok call →
      (runScript (Stage.invoke bound) (drainWith (Stage.invoke bound) bound 0) none
        call.callable.body.body
          (st.see (.call call.callable.body.label call.args))).EndsIn st₁ →
      Via α ε quiet thread (st.see (.call call.callable.body.label call.args)) st₁)
    (hends : Stage.invoke (bound + 1) v st ≠ .exhausted) :
    Invoked α ε quiet thread v st (Stage.invoke (bound + 1) v st) := by
  rw [Stage.invoke] at hends ⊢
  cases hread : st.exchange.callbacks.read v with
  | error e => exact .refused hread
  | ok call =>
    rw [hread] at hends
    dsimp only at hends ⊢
    cases hscript : runScript (Stage.invoke bound) (drainWith (Stage.invoke bound) bound 0) none
        call.callable.body.body (st.see (.call call.callable.body.label call.args)) with
    | returned u st₁ => exact .ran hread (h call st₁ hread (.inl ⟨u, hscript⟩))
    | unwound p st₁ => exact .aborted hread (h call st₁ hread (.inr ⟨p, hscript⟩))
    | exhausted =>
      rw [hscript] at hends
      exact absurd rfl hends

theorem invoked (bound : Nat) (hends : Stage.invoke bound v st ≠ .exhausted) :
    Invoked α ε false thread v st (Stage.invoke bound v st) := by
  cases bound with
  | zero => exact absurd rfl hends
  | succ bound =>
    exact invoked_of_script (fun call st₁ _ h => .of_plays (plays_runScript (playable_invoke bound)
      (playable_drainWith (playable_invoke bound) bound 0) _ h)) hends

section Quiet

variable {invoke : Value → Act (Except Fault Unit)} {drain : Act (Except Fault Nat)}
  {calls : Value → Stage → Prop} {drains : Stage → Prop} {a : Action}

theorem quiet_elementary (ha : a.isElementary = true) (hq : Quiet st a) :
    (Move.step (.act a) ha : Move α ε).Fits true := by
  refine ⟨by cases a <;> rfl, fun _ => ?_⟩
  unfold Quiet Action.handsIn at hq
  cases a with
  | post p w =>
    change (if p = Exchange.reversePort then some w else none) = none
    rw [if_neg (of_decide_eq_false hq)]
  | reverse => cases hq
  | _ => rfl

theorem quiet_run (hq : Quiet st a)
    (hcalls : ∀ w, a = .invoke w → st.exchange.isGone = false → (invoke w st).EndsIn st' →
      Via α ε true thread st st')
    (hdrains : a = .drain → st.exchange.isGone = false → (drain st).EndsIn st' →
      Via α ε true thread st st')
    (h : (run invoke drain none a st).EndsIn st') : Via α ε true thread st st' := by
  by_cases ha : a.isElementary = true
  · rcases run_elementary ha h with rfl | ⟨p, rfl⟩ | h
    · exact .refl _
    · exact .single (.keep p) ⟨rfl, fun _ => rfl⟩ rfl fun _ => rfl
    · refine .single (.step (.act a) ha) (quiet_elementary ha hq) (owners_perform ha h) fun f => ?_
      change ((f.onStage st).turn (Session.settle _ (perform 0 none a st) _)).2 = _
      rcases h with ⟨r, h⟩ | ⟨p, h⟩ <;> rw [h] <;> rfl
  · cases a with
    | own w =>
      rw [Outcome.endsIn_returned h]
      exact .refl _
    | native n w =>
      rw [run] at h
      rcases endsIn_withPort h with rfl | ⟨p, hp, h⟩
      · exact .refl _
      · rw [Outcome.endsIn_returned h]
        refine .single (.deliver p w) ⟨rfl, fun _ => ?_⟩ ?_ fun _ => rfl
        · have hne : p ≠ Exchange.reversePort := by
            rintro rfl
            exact of_decide_eq_false hq hp
          exact if_neg hne
        · have hplays : Plays α ε thread st (st.put (st.exchange.deliver p w).2) := .deliver st p w
          exact hplays.owners
    | invoke w =>
      rw [run] at h
      rcases endsIn_whileUp h with rfl | ⟨hlive, h⟩
      · exact .refl _
      · exact hcalls w rfl hlive (Outcome.endsIn_map h)
    | drain =>
      rw [run] at h
      rcases endsIn_whileUp h with rfl | ⟨hlive, h⟩
      · exact .refl _
      · exact hdrains rfl hlive (Outcome.endsIn_map h)
    | _ => exact absurd rfl ha

theorem quiet_runScript
    (hcalls : ∀ w st st', st.exchange.isGone = false → calls w st → (invoke w st).EndsIn st' →
      Via α ε true thread st st')
    (hdrains : ∀ st st', st.exchange.isGone = false → drains st → (drain st).EndsIn st' →
      Via α ε true thread st st') (script : Script) :
    ∀ {st}, scriptThroughout Quiet invoke drain calls drains script st →
      (runScript invoke drain none script st).EndsIn st' → Via α ε true thread st st' := by
  induction script with
  | nil =>
    intro st _ h
    rw [Outcome.endsIn_returned h]
    exact .refl _
  | cons a script ih =>
    intro st hq h
    obtain ⟨ha, hc, hd, hrest⟩ := hq
    have hrun : ∀ st₁, (run invoke drain none a st).EndsIn st₁ → Via α ε true thread st st₁ :=
      fun st₁ => quiet_run ha (fun w hw hlive => hcalls w st st₁ hlive (hc w hw))
        fun hdrain hlive => hdrains st st₁ hlive (hd hdrain)
    rw [runScript] at h
    rcases Outcome.endsIn_bind h with ⟨r, st₁, h₁, h⟩ | ⟨p, h⟩
    · exact ((hrun st₁ (.inl ⟨r, h₁⟩)).trans (.see st₁ (.reply r))).trans (ih (hrest r st₁ h₁) h)
    · exact hrun st' (.inr ⟨p, h⟩)

theorem quiet_drainWith
    (hcalls : ∀ w st st', st.exchange.isGone = false → calls w st → (invoke w st).EndsIn st' →
      Via α ε true thread st st') (bound : Nat) :
    ∀ n {st}, st.exchange.isGone = false → drainThroughout invoke calls bound st →
      (drainWith invoke bound n st).EndsIn st' → Via α ε true thread st st' := by
  induction bound with
  | zero =>
    intro n st _ _ h
    rcases h with ⟨r, h⟩ | ⟨p, h⟩ <;> cases h
  | succ bound ih =>
    intro n st hlive hq h
    have htake : Via α ε true thread st (st.put st.exchange.takeReverse.2) := .takeReverse hlive
    rw [drainWith] at h
    split at h
    · rename_i x hx
      rw [hx] at htake
      rw [Outcome.endsIn_returned h]
      exact htake
    · rename_i message x hx
      rw [hx] at htake
      obtain ⟨hc, hrest⟩ := hq message x hx
      have hlive' : (st.put x).exchange.isGone = false := by rw [htake.isGone, hlive]
      have hcall : ∀ st₁, (invoke message (st.put x)).EndsIn st₁ → Via α ε true thread st st₁ :=
        fun st₁ h₁ => htake.trans (hcalls message _ st₁ hlive' hc h₁)
      rcases Outcome.endsIn_bind h with ⟨r, st₁, h₁, h⟩ | ⟨p, h⟩
      · have hvia := hcall st₁ (.inl ⟨r, h₁⟩)
        cases r with
        | ok u =>
          have hlive₁ : st₁.exchange.isGone = false := by rw [hvia.isGone, hlive]
          exact hvia.trans (ih (n + 1) hlive₁ (hrest st₁ h₁) h)
        | error e =>
          rw [Outcome.endsIn_returned h]
          exact hvia
      · exact hcall st' (.inr ⟨p, h⟩)

/-- A call in whose course nothing is handed in comes about by moves that hand nothing in. -/
theorem invoked_quiet (bound : Nat) : ∀ {v st}, st.exchange.isGone = false →
    invokeThroughout Quiet bound v st → Stage.invoke bound v st ≠ .exhausted →
      Invoked α ε true thread v st (Stage.invoke bound v st) := by
  induction bound with
  | zero => exact fun _ _ hends => absurd rfl hends
  | succ bound ih =>
    intro v st _ hq hends
    have hcalls : ∀ w st st', st.exchange.isGone = false → invokeThroughout Quiet bound w st →
        (Stage.invoke bound w st).EndsIn st' → Via α ε true thread st st' := by
      intro w st st' hlive hw h
      refine (ih hlive hw ?_).via hlive h
      rcases h with ⟨r, h⟩ | ⟨p, h⟩ <;> rw [h] <;> simp
    refine invoked_of_script (fun call st₁ hread h => ?_) hends
    exact quiet_runScript hcalls (fun st st' hlive hd => quiet_drainWith hcalls bound 0 hlive hd)
      _ (hq call hread) h

end Quiet

end Stage

end CallExchange
