import CallExchange.Proofs.Floor.Finds
import CallExchange.Proofs.Floor.Shut
import CallExchange.Proofs.Floor.Tokens

set_option autoImplicit false

/-!
# After a shutdown

A shutdown is complete and final. Whatever is done afterwards, nothing is opened, started or
delivered, another shutdown changes nothing, and no callback from before is found. What had been
delivered is still there for those who read it.
-/

namespace CallExchange

open Exchange (Shut Wanes)

variable {α ε : Type}

namespace Exchange.Shut

variable {x : Exchange}

theorem deliver_dropped (h : x.Shut) (p : PortId) (v : Value) : (x.deliver p v).1 = .dropped := by
  unfold Exchange.deliver Exchange.post
  split
  · rfl
  · rw [if_pos h.closed]

theorem push_refused (h : x.Shut) (p : PortId) (v : Value) :
    (x.inbox p).push v = (false, x.inbox p) := by
  rw [Inbox.push, if_pos (h.inbox_closed p)]

theorem release_eq (h : x.Shut) : x.release = { x with owners := x.owners - 1 } := by
  unfold Exchange.release
  split
  · rename_i ho
    rw [ho]
    exact congrArg (fun n => { x with owners := n }) ho
  · rename_i ho
    rw [Exchange.shutdown_of_closed h.closed, ho]
  · rename_i n ho
    rw [ho]
    rfl

end Exchange.Shut

namespace Floor

variable {f g : Floor α ε} {m : Move α ε} {n old N : Nat} {t : Token} {thread : Option String}

/-- Nothing is pending or open, nothing opens, and no value is taken in. A further shutdown is
reported at most, and whoever lets go of the exchange does just that. -/
structure Ended (thread : Option String) (g : Floor α ε) : Prop where
  closed : g.exchange.closed = true
  pendingCalls : g.exchange.pendingCalls = 0
  openPorts : g.exchange.openPorts = 0
  push : ∀ p v, (g.exchange.inbox p).push v = (false, g.exchange.inbox p)
  openSingle : g.exchange.openSingle = (.error .closed, g.exchange)
  openBroadcast : ∀ task, g.exchange.openBroadcast task = (.error .closed, g.exchange)
  opening : ∀ m : Move α ε, m.opensPort = true → g.apply thread m =
    (if g.session.dispatcher then .reply (.fault .closed) else .noDispatcher, g)
  callAsync : ∀ bound task (codec : Codec α ε) entry,
    Stage.callAsync bound thread task codec entry g.session.stage =
      .returned (.error .closed) g.session.stage
  callStream : ∀ bound task (codec : Codec α ε) entry,
    Stage.callStream bound thread task codec entry g.session.stage =
      .returned (.error .closed) g.session.stage
  post : ∀ (m : Move α ε) p v, m.post? = some (p, v) →
    (g.apply thread m).1 = .reply (.delivery .dropped) ∨
      g.exchange.isGone = true ∧ (g.apply thread m).1 = .reply .exchangeGone
  deliver : ∀ p v, (g.apply thread (.deliver p v)).1 = .reply (.delivery .dropped)
  shutdown : g.exchange.shutdown = g.exchange
  shutsDown : ∀ m : Move α ε, Move.shutsDown (m, (g.apply thread m).1) = true →
    (g.apply thread m).2.exchange = g.exchange ∨
      (g.apply thread m).2.exchange = g.exchange.note .shutdownRequested
  release : g.exchange.release = { g.exchange with owners := g.exchange.owners - 1 }

theorem post_shut (hx : g.exchange.Shut) (thread : Option String) {p : PortId} {v : Value}
    (hm : m.post? = some (p, v)) :
    (g.apply thread m).1 = .reply (.delivery .dropped) ∨
      g.exchange.isGone = true ∧ (g.apply thread m).1 = .reply .exchangeGone := by
  cases hgone : g.exchange.isGone with
  | true => exact (apply_post_gone thread hm hgone).imp_right fun ha => ⟨rfl, ha⟩
  | false =>
    left
    rw [apply_post thread hm hgone, Exchange.post, if_pos hx.closed]

theorem shutsDown_shut (hx : g.exchange.Shut)
    (h : Move.shutsDown (m, (g.apply thread m).1) = true) :
    (g.apply thread m).2.exchange = g.exchange ∨
      (g.apply thread m).2.exchange = g.exchange.note .shutdownRequested := by
  unfold Move.shutsDown at h
  split at h
  · rename_i hel heq
    left
    obtain ⟨rfl, ha⟩ := Prod.mk.inj heq
    have hup := whileUp_answered (f := g) (r := .nothing)
      (g := fun x => .returned .nothing (g.session.stage.put x.shutdown)) (by simp) ha
    change (g.turn (g.session.settle (g.session.stage.whileUp fun x =>
      .returned .nothing (g.session.stage.put x.shutdown)) Session.replied)).2.exchange = _
    rw [hup]
    exact Exchange.shutdown_of_closed hx.closed
  · rename_i hel heq
    right
    obtain ⟨rfl, ha⟩ := Prod.mk.inj heq
    change (g.turn (g.session.withDispatcher _)).1 = _ at ha
    change (g.turn (g.session.withDispatcher _)).2.exchange = _
    unfold Session.withDispatcher at ha ⊢
    split at ha
    · rename_i hd
      rw [if_pos hd]
      exact Exchange.shutdown_of_closed (x := g.exchange.note .shutdownRequested) hx.closed
    · cases ha
  · cases h

theorem ended_of_shut (hx : g.exchange.Shut) (thread : Option String) : g.Ended thread where
  closed := hx.closed
  pendingCalls := hx.pendingCalls
  openPorts := hx.openPorts
  push := hx.push_refused
  openSingle := by rw [Exchange.openSingle, if_pos hx.closed]
  openBroadcast task := by rw [Exchange.openBroadcast, if_pos hx.closed]
  opening m hm := apply_opening_shut thread hx.closed hm
  callAsync bound task codec entry := by
    have hopen : g.session.stage.exchange.beginAsync task = (.error .closed, g.session.stage.exchange) := by
      rw [Exchange.beginAsync, Exchange.openSingle,
        if_pos (show g.session.stage.exchange.closed = true from hx.closed)]
    rw [Stage.callAsync, hopen]
    rfl
  callStream bound task codec entry := by
    have hopen : g.session.stage.exchange.beginStream task = (.error .closed, g.session.stage.exchange) := by
      rw [Exchange.beginStream, Exchange.openBroadcast,
        if_pos (show g.session.stage.exchange.closed = true from hx.closed)]
    rw [Stage.callStream, hopen]
    rfl
  post m p v hm := post_shut hx thread hm
  deliver p v := by
    change Answer.reply (.delivery (g.exchange.deliver p v).1) = _
    rw [hx.deliver_dropped]
  shutdown := Exchange.shutdown_of_closed hx.closed
  shutsDown m hm := shutsDown_shut hx hm
  release := hx.release_eq

/-- Whoever has a handle on what is left finds it, the oldest value first. -/
structure Readable (thread : Option String) (g : Floor α ε) : Prop where
  deferred : ∀ (m : Move α ε) n late d k verdict, m.reads? n = some late →
    g.session.deferreds[n]?.join = some d → d.state = .waiting k →
      (g.exchange.slot k).take.1 = some verdict → (g.apply thread m).1 = d.answerTo thread verdict
  single : ∀ n r h k verdict a, g.session.tickets[n]?.join = some k →
    (g.exchange.slot k).take.1 = some verdict → r.found? verdict = some a →
      (g.apply thread (.step (.readTicket n r) h)).1 = .slot a
  reverse : ∀ h v vs, g.exchange.isGone = false →
    (g.exchange.inbox Exchange.reversePort).queue = v :: vs →
      (g.apply thread (.step (.act .takeReverse) h)).1 = .reply (.value (some v)) ∧
        ((g.apply thread (.step (.act .takeReverse) h)).2.exchange.inbox
          Exchange.reversePort).queue = vs
  broadcast : ∀ (m : Move α ε) n b v vs, m.receives n = true →
    g.session.broadcasts[n]?.join = some b → (g.exchange.inbox b.id).queue = v :: vs →
      (g.apply thread m).1 = .reply (.value (some v)) ∧
        ((g.apply thread m).2.exchange.inbox b.id).queue = vs
  stream : ∀ (m : Move α ε) n late c v vs, m.pulls? n = some late →
    g.session.streams[n]?.join = some c → c.holds = true →
      (g.exchange.inbox c.port.id).queue = v :: vs →
        (g.apply thread m).1 = c.answerTo thread v ∧
          ∀ a, c.codec.isEnd v = false → c.codec.decode v = .ok (.success a) →
            ((g.apply thread m).2.exchange.inbox c.port.id).queue = vs

theorem readable (thread : Option String) (g : Floor α ε) : g.Readable thread where
  deferred _ _ _ _ _ _ hm hq hd hk := reads_found thread hm hq hd hk
  single _ _ h _ _ _ hq hk hr := readTicket_found thread h hq hk hr
  reverse h _ _ hlive hq := takeReverse_found thread h hlive hq
  broadcast _ _ _ _ _ hm hq hv := receives_found thread hm hq hv
  stream _ _ _ _ _ _ hm hq hc hv := pulls_found thread hm hq hc hv

/-- What `after` leaves of what was left by the move that took `f` to `f₁` and shut the exchange
down. -/
structure Leaves (thread : Option String) (f f₁ : Floor α ε) (after : List (Move α ε)) : Prop where
  wanes : Wanes f₁.exchange (run thread after f₁).exchange
  abandoned : ∀ k, (f.exchange.slot k).isSettled = false →
    (run thread after f₁).exchange.slot k = .abandoned
  ready : ∀ k v, f₁.exchange.slot k = .ready v →
    Avoids (fun f m => f.UsesSlot m k) thread after f₁ →
      (run thread after f₁).exchange.slot k = .ready v
  inbox : ∀ p, Avoids (fun f m => f.UsesInbox m p) thread after f₁ →
    (run thread after f₁).exchange.inbox p = f₁.exchange.inbox p

theorem TornDown.leaves {f₁ : Floor α ε} (h : f.TornDown m f₁.exchange) (hs : f₁.Sound n)
    (hx : f₁.exchange.closed = true) (thread : Option String) (after : List (Move α ε)) :
    Leaves thread f f₁ after where
  wanes := (run_shut hs hx thread after).2
  abandoned k hk := by
    have hleft := h.abandoned k hk
    rcases (run_shut hs hx thread after).2.slot k with he | ⟨⟨v, hv⟩, -⟩
    · rw [he, hleft]
    · rw [hleft] at hv
      cases hv
  ready k v hk havoids := run_keeps_ready hs hx thread havoids hk
  inbox p havoids := run_keeps_inbox hs hx thread havoids

/-- Calls of `t` are refused, in whichever way they are made, and start nothing. -/
structure Forgets (thread : Option String) (t : Token) (g : Floor α ε) : Prop where
  invoke : ∀ bound args, Stage.invoke (bound + 1) (.list (.callback t :: args)) g.session.stage =
    g.session.stage.refuse (.unresolvedCallback t)
  begin : ∀ args, (g.apply thread (.beginCallback (.list (.callback t :: args)))).2.running =
      g.running ∧
    (g.apply thread (.beginCallback (.list (.callback t :: args)))).1 =
      .reply (if g.exchange.isGone then .exchangeGone else .fault (.unresolvedCallback t))
  drain : ∀ bound args vs,
    (g.exchange.inbox Exchange.reversePort).queue = .list (.callback t :: args) :: vs →
      ∃ st, Stage.drain (bound + 1) g.session.stage = .returned (.error (.unresolvedCallback t)) st ∧
        st.trace = g.session.stage.trace ∧ (st.exchange.inbox Exchange.reversePort).queue = vs

theorem invoke_unresolved {s : Stage} (h : s.exchange.callbacks.resolve? t = none) (bound : Nat)
    (args : List Value) : Stage.invoke (bound + 1) (.list (.callback t :: args)) s =
      s.refuse (.unresolvedCallback t) := by
  rw [Stage.invoke, Callbacks.read, Callbacks.start, h]

theorem forgets_of_unresolved (h : g.exchange.callbacks.resolve? t = none)
    (thread : Option String) : g.Forgets thread t where
  invoke bound args := invoke_unresolved h bound args
  begin args := by
    have hread : g.exchange.callbacks.read (.list (.callback t :: args)) =
        .error (.unresolvedCallback t) := by
      rw [Callbacks.read, Callbacks.start, h]
    change (g.beginCallback _).2.running = _ ∧ (g.beginCallback _).1 = _
    unfold Floor.beginCallback
    dsimp only
    rw [session_exchange, hread]
    split <;> exact ⟨rfl, rfl⟩
  drain bound args vs hq := by
    have htake : g.session.stage.exchange.takeReverse = (some (.list (.callback t :: args)),
        g.exchange.setInbox Exchange.reversePort
          ⟨vs, (g.exchange.inbox Exchange.reversePort).closed⟩) := by
      rw [show g.session.stage.exchange = g.exchange from rfl, Exchange.takeReverse,
        Inbox.tryReceive, hq]
    rw [Stage.drain, Stage.drainWith, htake]
    dsimp only
    have hinvoke := invoke_unresolved (t := t) (s := g.session.stage.put
      (g.exchange.setInbox Exchange.reversePort
        ⟨vs, (g.exchange.inbox Exchange.reversePort).closed⟩)) h bound args
    rw [hinvoke]
    exact ⟨_, rfl, rfl, congrArg Inbox.queue (inbox_taken hq _)⟩

/-- A callback that was registered before the shutdown is not found after it. -/
theorem forgets_run {before after : List (Move α ε)} {c : Callable Routine}
    {e : Move α ε × Answer α ε} {f₀ : Floor α ε} (h : f₀.Numbered 0 0)
    (hx : (run thread before f₀).exchange.closed = false)
    (hy : ((run thread before f₀).apply thread m).2.exchange.closed = true)
    (hN : registrations (history thread (before ++ m :: after) f₀) + 1 < UInt64.size)
    (he : e ∈ history thread before f₀) (ht : Move.registered? e = some (c, t)) :
    (run thread after ((run thread before f₀).apply thread m).2).Forgets thread t := by
  rw [history_append, registrations_append, history, registrations_cons] at hN
  have hbefore : 0 + registrations (history thread before f₀) + 1 < UInt64.size := by omega
  have hle := token_le h hbefore he ht
  obtain ⟨hnone, hshut⟩ := (h.run hbefore).shut thread hx hy
  rw [hnone] at hN
  rw [Option.isSome_none, Bool.toNat_false, Nat.zero_add] at hN
  have hlater : (run thread after ((run thread before f₀).apply thread m).2).Numbered
      (0 + registrations (history thread before f₀)) _ := hshut.run (by omega)
  exact forgets_of_unresolved (hlater.unresolved hle) thread

/-- In every run that does not use up the numbers for ports, an exchange is closed by a shutdown and
by its last owner. The move that closes it gives up whoever waits and leaves what was delivered, but
for what it takes itself. From then on, whatever is done, all has `Ended`; what was left is
`Readable` and is lost to those only who take it; and no callback from before is started again, as
long as there are tokens left. -/
theorem run_stays_down {s : Settings} {x : Exchange} (hx : Exchange.create s = .ok x)
    (thread : Option String) (before : List (Move α ε)) (m : Move α ε)
    (hfew : (before ++ [m]).countP Move.opensPort + 1 < PortId.supply) :
    let f := run thread before (start x)
    let f₁ := (f.apply thread m).2
    (Move.shutsDown (m, (f.apply thread m).1) = true ∨ f₁.exchange.isGone = true →
      f₁.exchange.closed = true) ∧
    (f₁.exchange.closed = true → f.TornDown m f₁.exchange ∧
      ∀ after, (run thread after f₁).Ended thread ∧ (run thread after f₁).Readable thread ∧
        Leaves thread f f₁ after ∧
        (f.exchange.closed = false →
          registrations (history thread (before ++ m :: after) (start x)) + 1 < UInt64.size →
            ∀ e c t, e ∈ history thread before (start x) → Move.registered? e = some (c, t) →
              (run thread after f₁).Forgets thread t)) := by
  intro f f₁
  have hs : (start x : Floor α ε).Sound ((before ++ [m]).countP Move.opensPort + 0) :=
    sound_start hx hfew
  rw [countP_opens_append, countP_opens_cons] at hs
  have hf : f.Sound (m.opensPort.toNat + (List.countP Move.opensPort [] + 0)) := hs.run thread
  have hf₁ := hf.apply thread
  refine ⟨?_, fun hclosed => ⟨tornDown_apply hf thread hclosed, fun after => ?_⟩⟩
  · rintro (hdown | hgone)
    · exact (apply_shutsDown hf.consistent hdown).closed
    · exact hf₁.consistent.gone_closed hgone
  · obtain ⟨hsound, hwanes⟩ := run_shut hf₁ hclosed thread after
    refine ⟨ended_of_shut ⟨hsound.consistent, hwanes.closed⟩ thread, readable thread _,
      (tornDown_apply hf thread hclosed).leaves hf₁ hclosed thread after, ?_⟩
    intro hopen hN e c t he ht
    exact forgets_run (numbered_start hx) hopen hclosed hN he ht

/-- Two ports, of which one has its delivery, a broadcast port and a reverse call, all left behind
by a shutdown, after which the other delivery is tried and a callback is registered. -/
theorem run_stays_down_after_shutdown : ∃ x, Exchange.create .standard = .ok x ∧
    let call : Value := .list [.callback ⟨1⟩]
    let before : List (Move Unit Unit) :=
      [.step (.act (.register .nullary "f" [])) rfl, .step .openSingle rfl, .step .openSingle rfl,
        .step (.openBroadcast "b") rfl, .deliver ⟨2⟩ (.bool true), .deliver ⟨3⟩ (.bool false),
        .step (.act (.reverse call)) rfl]
    let m : Move Unit Unit := .step (.act .shutdown) rfl
    let after : List (Move Unit Unit) :=
      [.deliver ⟨1⟩ .null, .step (.act (.register .nullary "g" [])) rfl]
    let f := run none before (start x)
    let g := run none after (f.apply none m).2
    (before ++ [m]).countP Move.opensPort + 1 < PortId.supply ∧
      Move.shutsDown (m, (f.apply none m).1) = true ∧ g.exchange.closed = true ∧
      (g.apply none (.step (.readTicket 0 .tryTake) rfl)).1 = .slot (.verdict .abandoned) ∧
      (g.apply none (.step (.readTicket 1 .tryTake) rfl)).1 = .slot (.verdict (.value (.bool true))) ∧
      (g.apply none (.step (.tryReceive 0) rfl)).1 = .reply (.value (some (.bool false))) ∧
      (g.apply none (.step .openSingle rfl)).2 = g ∧ g.exchange.shutdown = g.exchange ∧
      ∃ st, Stage.drain 1 g.session.stage = .returned (.error (.unresolvedCallback ⟨1⟩)) st := by
  obtain ⟨x, hx⟩ : ∃ x, Exchange.create .standard = .ok x := ⟨_, rfl⟩
  refine ⟨x, hx, ?_⟩
  intro call before m after f g
  have hfew : (before ++ [m]).countP Move.opensPort + 1 < PortId.supply := by decide
  have hshuts : Move.shutsDown (m, (f.apply none m).1) = true := by
    cases hx
    rfl
  have hopen : (f.exchange.slot 0).isSettled = false := by
    cases hx
    rfl
  have hdone : f.exchange.slot 1 = .ready (.bool true) := by
    cases hx
    rfl
  have hqueue : (f.exchange.inbox ⟨3⟩).queue = [.bool false] := by
    cases hx
    rfl
  have hcalls : (f.exchange.inbox Exchange.reversePort).queue = [call] := by
    cases hx
    rfl
  have hclosed : f.exchange.closed = false := by
    cases hx
    rfl
  have hcount : registrations (history none (before ++ m :: after) (start x)) + 1 < UInt64.size := by
    have htwo : registrations (history none (before ++ m :: after) (start x)) = 2 := by
      cases hx
      rfl
    rw [htwo]
    decide
  have hregistered : ∃ e ∈ history none before (start x),
      Move.registered? e = some (⟨.nullary, ⟨"f", []⟩⟩, ⟨1⟩) := by
    cases hx
    exact ⟨_, List.mem_cons_self, rfl⟩
  have htickets : g.session.tickets = [some 0, some 1] := by
    cases hx
    rfl
  have hbroadcasts : g.session.broadcasts = [some ⟨⟨3⟩, "b#0"⟩] := by
    cases hx
    rfl
  -- neither the shutdown nor what follows uses a handle
  have hunused : ∀ f' : Floor Unit Unit, ∀ m' ∈ m :: after,
      (∀ k, ¬ f'.UsesSlot m' k) ∧ ∀ p, ¬ f'.UsesInbox m' p := by
    intro f' m' hm'
    have hidle : m'.place? = none ∧ m'.takesReverse = false := by
      simp only [after, m, List.mem_cons, List.not_mem_nil, or_false] at hm'
      rcases hm' with rfl | rfl | rfl <;> exact ⟨rfl, rfl⟩
    refine ⟨?_, ?_⟩
    · rintro k ⟨q, h, hq, -⟩
      rw [hidle.1] at hq
      cases hq
    · rintro p (⟨htakes, -⟩ | ⟨q, h, hq, -⟩)
      · rw [hidle.2] at htakes
        cases htakes
      · rw [hidle.1] at hq
        cases hq
  obtain ⟨hcloses, hdown⟩ := run_stays_down hx none before m hfew
  obtain ⟨htorn, hafter⟩ := hdown (hcloses (.inl hshuts))
  obtain ⟨hended, hreadable, hleaves, hforgets⟩ := hafter after
  have hslot₁ : g.exchange.slot 1 = .ready (.bool true) :=
    hleaves.ready 1 _ (htorn.ready 1 _ hdone ((hunused _ m List.mem_cons_self).1 1))
      ⟨(hunused _ _ (by simp [after])).1 1, (hunused _ _ (by simp [after])).1 1, trivial⟩
  have hinbox : ∀ p, g.exchange.inbox p = ⟨(f.exchange.inbox p).queue, true⟩ := fun p =>
    (hleaves.inbox p
      ⟨(hunused _ _ (by simp [after])).2 p, (hunused _ _ (by simp [after])).2 p, trivial⟩).trans
        (htorn.inbox p ((hunused _ m List.mem_cons_self).2 p))
  have hread := hreadable.single 0 .tryTake rfl 0 .abandoned (.verdict .abandoned)
    (by rw [htickets]; rfl) (by rw [hleaves.abandoned 0 hopen]; rfl) rfl
  have hread₁ := hreadable.single 1 .tryTake rfl 1 (.value (.bool true)) (.verdict (.value (.bool true)))
    (by rw [htickets]; rfl) (by rw [hslot₁]; rfl) rfl
  have hreceived := hreadable.broadcast (.step (.tryReceive 0) rfl) 0 ⟨⟨3⟩, "b#0"⟩ (.bool false) []
    rfl (by rw [hbroadcasts]; rfl) (by rw [hinbox, hqueue])
  obtain ⟨e, he, ht⟩ := hregistered
  have hforgotten : g.Forgets none ⟨1⟩ := hforgets hclosed hcount e _ _ he ht
  obtain ⟨st, hdrain, -⟩ := hforgotten.drain 0 [] [] (by rw [hinbox, hcalls])
  have hrefused : (g.apply none (.step .openSingle rfl)).2 = g := by
    rw [hended.opening (.step .openSingle rfl) rfl]
  exact ⟨hfew, hshuts, hended.closed, hread, hread₁, hreceived.1, hrefused, hended.shutdown, st,
    hdrain⟩

end Floor

end CallExchange
