import CallExchange.Proofs.Floor.Sound

set_option autoImplicit false

/-!
# Scripts as moves

A script that is performed on a stage, with all the callbacks that it starts, is a sequence of moves
on the floor: it leaves the stage as the moves leave it, whatever session the stage belongs to and
whatever other code is running.
-/

namespace CallExchange

variable {α ε : Type}

namespace Outcome

variable {σ τ β γ : Type}

theorem endsIn_bind {o : Outcome σ β} {f : β → σ → Outcome σ γ} {s : σ} (h : (o.bind f).EndsIn s) :
    (∃ b s', o = .returned b s' ∧ (f b s').EndsIn s) ∨ ∃ p, o = .unwound p s := by
  cases o with
  | returned b s' => exact .inl ⟨b, s', rfl, h⟩
  | unwound p s' =>
    rcases h with ⟨b, hb⟩ | ⟨q, hq⟩
    · cases hb
    · cases hq
      exact .inr ⟨p, rfl⟩
  | exhausted =>
    rcases h with ⟨b, hb⟩ | ⟨q, hq⟩
    · cases hb
    · cases hq

theorem endsIn_map {o : Outcome σ β} {f : β → γ} {s : σ} (h : (o.map f id).EndsIn s) :
    o.EndsIn s := by
  cases o with
  | returned b s' =>
    rcases h with ⟨c, hc⟩ | ⟨q, hq⟩
    · cases hc
      exact .inl ⟨b, rfl⟩
    · cases hq
  | unwound p s' =>
    rcases h with ⟨c, hc⟩ | ⟨q, hq⟩
    · cases hc
    · cases hq
      exact .inr ⟨p, rfl⟩
  | exhausted =>
    rcases h with ⟨c, hc⟩ | ⟨q, hq⟩
    · cases hc
    · cases hq

theorem endsIn_returned {b : β} {s s' : σ} (h : (returned b s : Outcome σ β).EndsIn s') :
    s' = s := by
  rcases h with ⟨c, hc⟩ | ⟨q, hq⟩
  · cases hc
    rfl
  · cases hq

theorem endsIn_unwound {p : Panic} {s s' : σ} (h : (unwound p s : Outcome σ β).EndsIn s') :
    s' = s := by
  rcases h with ⟨c, hc⟩ | ⟨q, hq⟩
  · cases hc
  · cases hq
    rfl

end Outcome

namespace Exchange

theorem owners_closePort (x : Exchange) (p : PortId) : (x.closePort p).2.owners = x.owners := by
  by_cases hp : p = reversePort
  · rw [hp]
    rfl
  · have hclose := (x.settled_closeBroadcast p).owners
    rw [closePort_snd x hp]
    rcases (x.closeBroadcast p).2.cancelPending_eq p with ⟨he, -⟩ | ⟨w, r, -, he⟩
    · rw [he]
      exact hclose
    · rw [he]
      exact hclose

theorem owners_shutdown (x : Exchange) : x.shutdown.owners = x.owners := by
  cases hx : x.closed with
  | true => rw [shutdown_of_closed hx]
  | false =>
    have hclose := settled_closeInboxes { x with closed := true, pending := x.pending.abandonAll.2 }
      (x.ports.map Prod.fst)
    exact (owners_congr (core_shutdown hx)).trans hclose.owners

end Exchange

namespace Floor

variable {thread : Option String}

def rest (f : Floor α ε) (j : Nat) : Floor α ε :=
  { f with running := f.running ++ List.replicate j none }

theorem rest_zero (f : Floor α ε) : f.rest 0 = f := by
  rw [rest, List.replicate_zero, List.append_nil]

theorem rest_rest (f : Floor α ε) (i j : Nat) : (f.rest i).rest j = f.rest (i + j) := by
  change Floor.mk _ ((f.running ++ _) ++ _) = _
  rw [List.append_assoc, List.replicate_append_replicate]
  rfl

/-- Code that was started is over, and so is all that was started after it. -/
theorem finish_launched (thread : Option String) (f : Floor α ε) (r : Running α ε) (j : Nat)
    (ended : Except Panic Buffer) :
    ((f.launch r).rest j).apply thread (.finish f.running.length ended) =
      (f.rest (j + 1)).turn (conclude thread r ended f.session) := by
  have hget : ((f.launch r).rest j).running[f.running.length]?.join = some r := by
    change ((f.running ++ [some r]) ++ List.replicate j none)[f.running.length]?.join = _
    simp
  have hset : ((f.launch r).rest j).running.set f.running.length none = (f.rest (j + 1)).running := by
    change ((f.running ++ [some r]) ++ List.replicate j none).set f.running.length none =
      f.running ++ List.replicate (j + 1) none
    rw [List.append_assoc, List.set_append_right _ _ (Nat.le_refl _), Nat.sub_self]
    rfl
  change finish thread f.running.length ended ((f.launch r).rest j) = _
  rw [finish, hget]
  dsimp only
  rw [hset]
  rfl

end Floor

namespace Stage

/-- From one state of a stage to another by moves that open nothing. Code that is started on the way
is over at the end. -/
structure Plays (α ε : Type) (thread : Option String) (st st' : Stage) : Prop where
  owners : st'.exchange.owners = st.exchange.owners
  moves : ∀ f : Floor α ε, ∃ ms j, ms.countP Move.opensPort = 0 ∧
    Floor.run thread ms (f.onStage st) = (f.onStage st').rest j

variable {thread : Option String} {st st' st'' : Stage}

namespace Plays

theorem refl (st : Stage) : Plays α ε thread st st :=
  ⟨rfl, fun f => ⟨[], 0, rfl, (f.onStage st).rest_zero.symm⟩⟩

theorem trans (h : Plays α ε thread st st') (h' : Plays α ε thread st' st'') :
    Plays α ε thread st st'' where
  owners := h'.owners.trans h.owners
  moves f := by
    obtain ⟨ms, j, hms, hrun⟩ := h.moves f
    obtain ⟨ms', j', hms', hrun'⟩ := h'.moves (f.rest j)
    refine ⟨ms ++ ms', j + j', ?_, ?_⟩
    · rw [List.countP_append, hms, hms']
    · rw [Floor.run_append, hrun, ← Floor.rest_rest]
      exact hrun'

theorem single (m : Move α ε) (hm : m.opensPort = false)
    (howners : st'.exchange.owners = st.exchange.owners)
    (h : ∀ f : Floor α ε, ((f.onStage st).apply thread m).2 = f.onStage st') :
    Plays α ε thread st st' where
  owners := howners
  moves f := by
    refine ⟨[m], 0, ?_, ?_⟩
    · rw [List.countP_singleton, hm]
      rfl
    · rw [Floor.rest_zero]
      exact h f

theorem see (st : Stage) (e : Event) : Plays α ε thread st (st.see e) :=
  single (.see e) rfl rfl fun _ => rfl

theorem deliver (st : Stage) (p : PortId) (v : Value) :
    Plays α ε thread st (st.put (st.exchange.deliver p v).2) := by
  refine single (.deliver p v) rfl ?_ fun _ => rfl
  change (st.exchange.deliver p v).2.owners = _
  rw [Exchange.deliver]
  split
  · rfl
  · exact st.exchange.owners_post p v

theorem callback {message : Value} {call : Invocation Routine} (ended : Except Panic Buffer)
    (hlive : st.exchange.isGone = false)
    (hcall : st.exchange.callbacks.read message = .ok call)
    (h : Plays α ε thread (st.see (.call call.callable.body.label call.args)) st') :
    Plays α ε thread st (match ended with
      | .ok _ => st'.put (st'.exchange.record .callbackInvoked)
      | .error _ => st') where
  owners := by
    cases ended <;> exact h.owners
  moves f := by
    obtain ⟨ms, j, hms, hrun⟩ := h.moves (f.launch .callback)
    refine ⟨.beginCallback message :: ms ++ [.finish f.running.length ended], j + 1, ?_, ?_⟩
    · rw [List.countP_append, List.countP_cons, hms]
      rfl
    · have hbegin : ((f.onStage st).apply thread (.beginCallback message)).2 =
          (f.launch .callback).onStage (st.see (.call call.callable.body.label call.args)) := by
        change ((f.onStage st).beginCallback message).2 = _
        rw [Floor.beginCallback]
        dsimp only
        rw [if_neg (by rw [show (f.onStage st).session.exchange = st.exchange from rfl, hlive]; simp)]
        rw [show (f.onStage st).session.exchange = st.exchange from rfl, hcall]
        rfl
      rw [Floor.run_append]
      change (Floor.apply thread (Floor.run thread ms ((f.onStage st).apply thread _).2) _).2 = _
      rw [hbegin, hrun]
      have hfinish := Floor.finish_launched thread (f.onStage st') .callback j ended
      change ((((f.onStage st').launch .callback).rest j).apply thread _).2 = _
      rw [show f.running.length = (f.onStage st').running.length from rfl, hfinish]
      cases ended <;> rfl

end Plays

section Actions

variable {invoke : Value → Act (Except Fault Unit)} {drain : Act (Except Fault Nat)}
  {own : Option PortId} {a : Action}

theorem endsIn_whileUp {f : Exchange → Outcome Stage Reply} (h : (st.whileUp f).EndsIn st') :
    st' = st ∨ st.exchange.isGone = false ∧ (f st.exchange).EndsIn st' := by
  rw [whileUp] at h
  split at h
  · exact .inl (Outcome.endsIn_returned h)
  · rename_i hgone
    exact .inr ⟨by simpa using hgone, h⟩

theorem endsIn_withPort {p : Option PortId} {f : PortId → Outcome Stage Reply}
    (h : (st.withPort p f).EndsIn st') : st' = st ∨ ∃ q, p = some q ∧ (f q).EndsIn st' := by
  cases p with
  | none => exact .inl (Outcome.endsIn_returned h)
  | some q => exact .inr ⟨q, rfl, h⟩

theorem owners_whileUp {f : Exchange → Outcome Stage Reply} (h : (st.whileUp f).EndsIn st')
    (hf : (f st.exchange).EndsIn st' → st'.exchange.owners = st.exchange.owners) :
    st'.exchange.owners = st.exchange.owners := by
  rcases endsIn_whileUp h with rfl | ⟨-, h⟩
  · rfl
  · exact hf h

theorem owners_on {β : Type} {r : β × Exchange} {answer : β → Reply}
    (hr : r.2.owners = st.exchange.owners) (h : (st.on r answer).EndsIn st') :
    st'.exchange.owners = st.exchange.owners := by
  rw [Outcome.endsIn_returned h]
  exact hr

theorem owners_notify (h : st.notify.EndsIn st') : st'.exchange.owners = st.exchange.owners := by
  rw [notify] at h
  split at h
  · rw [Outcome.endsIn_returned h]
    rfl
  · rw [Outcome.endsIn_returned h]

theorem run_elementary (ha : a.isElementary = true) (h : (run invoke drain own a st).EndsIn st') :
    st' = st ∨ (∃ p, st' = (st.keep p).2) ∨ (perform 0 none a st).EndsIn st' := by
  cases a with
  | own | native | invoke | drain => cases ha
  | ownClosed =>
    rcases endsIn_withPort h with rfl | ⟨q, -, h⟩
    · exact .inl rfl
    · exact .inl (Outcome.endsIn_returned h)
  | keep =>
    rcases endsIn_withPort h with rfl | ⟨q, -, h⟩
    · exact .inl rfl
    · exact .inr (.inl ⟨q, Outcome.endsIn_returned h⟩)
  | _ => exact .inr (.inr h)

theorem owners_perform (ha : a.isElementary = true) (h : (perform 0 none a st).EndsIn st') :
    st'.exchange.owners = st.exchange.owners := by
  rw [perform] at h
  cases a <;> rw [run] at h
  case own | native | invoke | drain => cases ha
  case ownClosed | keep => rw [Outcome.endsIn_returned h]
  case nativeClosed | nativeInfo =>
    rcases endsIn_withPort h with rfl | ⟨q, -, h⟩
    · rfl
    · rw [Outcome.endsIn_returned h]
  case panic => rw [Outcome.endsIn_unwound h]
  case post | reverse => exact owners_whileUp h (owners_on (Exchange.owners_post _ _ _))
  case closePort => exact owners_whileUp h (owners_on (Exchange.owners_closePort _ _))
  case notify => exact owners_whileUp h owners_notify
  case shutdown =>
    refine owners_whileUp h fun h => ?_
    rw [Outcome.endsIn_returned h]
    exact Exchange.owners_shutdown _
  case isOpen | portName | callbackCount | counters =>
    refine owners_whileUp h fun h => ?_
    rw [Outcome.endsIn_returned h]
  case register | unregister | takeReverse => exact owners_whileUp h (owners_on rfl)

end Actions

def Playable (α ε : Type) (thread : Option String) {β : Type} (act : Act β) : Prop :=
  ∀ st st' : Stage, st.exchange.isGone = false → (act st).EndsIn st' → Plays α ε thread st st'

namespace Plays

theorem isGone (h : Plays α ε thread st st') : st'.exchange.isGone = st.exchange.isGone := by
  rw [Exchange.isGone, Exchange.isGone, h.owners]

theorem keep (st : Stage) (p : PortId) : Plays α ε thread st (st.keep p).2 :=
  single (.keep p) rfl rfl fun _ => rfl

theorem takeReverse (hlive : st.exchange.isGone = false) :
    Plays α ε thread st (st.put st.exchange.takeReverse.2) := by
  refine single (.step (.act .takeReverse) rfl) rfl rfl fun f => ?_
  have hstep : perform 0 none .takeReverse st = st.on st.exchange.takeReverse .value := by
    rw [perform, run, whileUp, hlive]
    rfl
  change ((f.onStage st).turn (Session.settle _ (perform 0 none .takeReverse st) _)).2 = _
  rw [hstep]
  rfl

theorem refuse {message : Value} {e : Fault} (hlive : st.exchange.isGone = false)
    (hcall : st.exchange.callbacks.read message = .error e) :
    Plays α ε thread st (st.put ((st.exchange.record .callbackFailed).note (.reverseCallFailed e))) := by
  refine single (.beginCallback message) rfl rfl fun f => ?_
  change ((f.onStage st).beginCallback message).2 = _
  rw [Floor.beginCallback]
  dsimp only
  rw [if_neg (by rw [show (f.onStage st).session.exchange = st.exchange from rfl, hlive]; simp)]
  rw [show (f.onStage st).session.exchange = st.exchange from rfl, hcall]
  rfl

end Plays

section Scripts

variable {invoke : Value → Act (Except Fault Unit)} {drain : Act (Except Fault Nat)}
  {own : Option PortId} {a : Action}

theorem plays_elementary (ha : a.isElementary = true) (h : (run invoke drain own a st).EndsIn st') :
    Plays α ε thread st st' := by
  rcases run_elementary ha h with rfl | ⟨p, rfl⟩ | h
  · exact .refl _
  · exact .keep st p
  · refine .single (.step (.act a) ha) ?_ (owners_perform ha h) fun f => ?_
    · cases a <;> rfl
    · change ((f.onStage st).turn (Session.settle _ (perform 0 none a st) _)).2 = _
      rcases h with ⟨r, h⟩ | ⟨p, h⟩
      · rw [h]
        rfl
      · rw [h]
        rfl

theorem plays_run (hinvoke : ∀ v, Playable α ε thread (invoke v))
    (hdrain : Playable α ε thread drain)
    (h : (run invoke drain own a st).EndsIn st') : Plays α ε thread st st' := by
  by_cases ha : a.isElementary = true
  · exact plays_elementary ha h
  · cases a with
    | own v | native n v =>
      rw [run] at h
      rcases endsIn_withPort h with rfl | ⟨p, -, h⟩
      · exact .refl _
      · rw [Outcome.endsIn_returned h]
        exact .deliver st p v
    | invoke message =>
      rw [run] at h
      rcases endsIn_whileUp h with rfl | ⟨hlive, h⟩
      · exact .refl _
      · exact hinvoke message st st' hlive (Outcome.endsIn_map h)
    | drain =>
      rw [run] at h
      rcases endsIn_whileUp h with rfl | ⟨hlive, h⟩
      · exact .refl _
      · exact hdrain st st' hlive (Outcome.endsIn_map h)
    | _ => exact absurd rfl ha

theorem plays_runScript (hinvoke : ∀ v, Playable α ε thread (invoke v))
    (hdrain : Playable α ε thread drain) (script : Script) :
    ∀ {st}, (runScript invoke drain own script st).EndsIn st' → Plays α ε thread st st' := by
  induction script with
  | nil =>
    intro st h
    rw [Outcome.endsIn_returned h]
    exact .refl _
  | cons a script ih =>
    intro st h
    rw [runScript] at h
    rcases Outcome.endsIn_bind h with ⟨r, st₁, h₁, h⟩ | ⟨p, h⟩
    · have hrun : Plays α ε thread st st₁ := plays_run hinvoke hdrain (.inl ⟨r, h₁⟩)
      exact (hrun.trans (.see st₁ (.reply r))).trans (ih h)
    · exact plays_run hinvoke hdrain (.inr ⟨p, h⟩)

theorem playable_drainWith (hinvoke : ∀ v, Playable α ε thread (invoke v)) (bound : Nat) :
    ∀ n, Playable α ε thread (drainWith invoke bound n) := by
  induction bound with
  | zero =>
    intro n st st' _ h
    rcases h with ⟨r, h⟩ | ⟨p, h⟩ <;> cases h
  | succ bound ih =>
    intro n st st' hlive h
    have htake : Plays α ε thread st (st.put st.exchange.takeReverse.2) := .takeReverse hlive
    rw [drainWith] at h
    split at h
    · rename_i x hx
      rw [hx] at htake
      rw [Outcome.endsIn_returned h]
      exact htake
    · rename_i message x hx
      rw [hx] at htake
      have hlive' : (st.put x).exchange.isGone = false := by rw [htake.isGone, hlive]
      rcases Outcome.endsIn_bind h with ⟨r, st₁, h₁, h⟩ | ⟨p, h⟩
      · have hcall := hinvoke message _ st₁ hlive' (.inl ⟨r, h₁⟩)
        cases r with
        | ok u =>
          have hlive₁ : st₁.exchange.isGone = false := by rw [hcall.isGone, hlive']
          exact (htake.trans hcall).trans (ih (n + 1) st₁ st' hlive₁ h)
        | error e =>
          rw [Outcome.endsIn_returned h]
          exact htake.trans hcall
      · exact htake.trans (hinvoke message _ st' hlive' (.inr ⟨p, h⟩))

theorem playable_invoke (bound : Nat) : ∀ v, Playable α ε thread (Stage.invoke bound v) := by
  induction bound with
  | zero =>
    intro v st st' _ h
    rcases h with ⟨r, h⟩ | ⟨p, h⟩ <;> cases h
  | succ bound ih =>
    intro v st st' hlive h
    rw [Stage.invoke] at h
    split at h
    · rename_i e hread
      rw [Outcome.endsIn_returned h]
      exact .refuse hlive hread
    · rename_i call hread
      -- whatever the callback invokes or drains has a smaller bound
      have hscript : ∀ {st₁ st₂}, (runScript (Stage.invoke bound)
          (drainWith (Stage.invoke bound) bound 0) none call.callable.body.body st₁).EndsIn st₂ →
            Plays α ε thread st₁ st₂ :=
        plays_runScript ih (playable_drainWith ih bound 0) call.callable.body.body
      rcases Outcome.endsIn_bind h with ⟨_, st₁, h₁, h⟩ | ⟨p, h⟩
      · rw [Outcome.endsIn_returned h]
        exact Plays.callback (.ok ⟨[]⟩) hlive hread (hscript (.inl ⟨_, h₁⟩))
      · exact Plays.callback (.error p) hlive hread (hscript (.inr ⟨p, h⟩))

theorem playable_drain (bound : Nat) : Playable α ε thread (Stage.drain bound) :=
  playable_drainWith (playable_invoke bound) bound 0

theorem plays_performAll {bound : Nat} {script : Script}
    (h : (performAll bound own script st).EndsIn st') : Plays α ε thread st st' :=
  plays_runScript (playable_invoke bound) (playable_drain bound) script h

theorem plays_perform {bound : Nat} (h : (perform bound own a st).EndsIn st') :
    Plays α ε thread st st' :=
  plays_run (playable_invoke bound) (playable_drain bound) h

theorem plays_performApart {bound : Nat} (script : Script) :
    ∀ {st}, (performApart bound script st).EndsIn st' → Plays α ε thread st st' := by
  induction script with
  | nil =>
    intro st h
    rw [Outcome.endsIn_returned h]
    exact .refl _
  | cons a script ih =>
    intro st h
    rw [performApart] at h
    split at h
    · rename_i r st₁ h₁
      exact (plays_perform (.inl ⟨r, h₁⟩)).trans (ih (Outcome.endsIn_map h))
    · rename_i p st₁ h₁
      rw [Outcome.endsIn_returned h]
      exact plays_perform (.inr ⟨p, h₁⟩)
    · rcases h with ⟨r, h⟩ | ⟨p, h⟩ <;> cases h

theorem plays_performThreads {bound : Nat} (scripts : List Script) :
    ∀ {st}, (performThreads bound scripts st).EndsIn st' → Plays α ε thread st st' := by
  induction scripts with
  | nil =>
    intro st h
    rw [Outcome.endsIn_returned h]
    exact .refl _
  | cons script scripts ih =>
    intro st h
    rw [performThreads] at h
    rcases Outcome.endsIn_bind h with ⟨rs, st₁, h₁, h⟩ | ⟨p, h⟩
    · exact (plays_performApart script (.inl ⟨rs, h₁⟩)).trans (ih (Outcome.endsIn_map h))
    · exact plays_performApart script (.inr ⟨p, h⟩)

end Scripts

end Stage

end CallExchange
