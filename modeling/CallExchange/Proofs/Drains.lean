import CallExchange.Proofs.Bounds
import CallExchange.Proofs.Floor.QuietScripts

set_option autoImplicit false

/-!
# Drains

A drain of a stage is one among other moves: what it returns is how that one ends. If the callbacks
that it runs end and hand nothing in, it ends as well, whatever they do otherwise, and no more is
taken than was queued.
-/

namespace CallExchange

variable {α ε : Type}

namespace Stage

inductive Amounts (own : List Value) :
    Outcome Stage (Except Fault Nat) → DrainEnd → Stage → Prop where
  | emptied (st : Stage) : Amounts own (.returned (.ok own.length) st) .emptied st
  | refused (e : Fault) (st : Stage) : Amounts own (.returned (.error e) st) (.refused e) st
  | aborted (p : Panic) (st : Stage) : Amounts own (.unwound p st) (.aborted p) st

theorem Amounts.of_ok {own : List Value} {n : Nat} {st st' : Stage} {result : DrainEnd}
    (h : Amounts own (.returned (.ok n) st) result st') : result = .emptied ∧ own.length = n := by
  generalize ho : (Outcome.returned (.ok n) st : Outcome Stage (Except Fault Nat)) = o at h
  cases h <;> cases ho
  exact ⟨rfl, rfl⟩

/-- A state in which a drain that begins in `st` looks for the next message: every call that it has
taken so far has been run to its end. -/
inductive Looks (st : Stage) : Stage → Prop where
  | start : Looks st st
  | next {st₁ st₂ : Stage} {v : Value} {x : Exchange} {bound : Nat} (h : Looks st st₁)
      (htake : st₁.exchange.takeReverse = (some v, x))
      (hcall : Stage.invoke bound v (st₁.put x) = .returned (.ok ()) st₂) : Looks st st₂

structure At (quiet : Bool) (thread : Option String) (f : Floor α ε) (ms : List (Move α ε))
    (own : List Value) (st : Stage) : Prop where
  draining : Floor.Draining thread f ms own
  fits : ∀ m ∈ ms, Move.Fits quiet m
  run : ∃ j, Floor.run thread ms f = (f.onStage st).rest j
  live : st.exchange.isGone = false

structure Over (quiet : Bool) (thread : Option String) (f : Floor α ε) (ms : List (Move α ε))
    (own : List Value) (result : DrainEnd) (st : Stage) : Prop where
  drained : Floor.Drained thread f ms own result
  fits : ∀ m ∈ ms, Move.Fits quiet m
  run : ∃ j, Floor.run thread ms f = (f.onStage st).rest j

variable {quiet : Bool} {thread : Option String} {st st₁ st' : Stage} {v : Value} {x : Exchange}
  {f : Floor α ε} {ms : List (Move α ε)} {own : List Value} {call : Invocation Routine}
  {o : Outcome Stage (Except Fault Unit)}

theorem fits_take : (Move.take : Move α ε).Fits quiet := ⟨rfl, fun _ => rfl⟩

theorem fits_beginCallback (v : Value) : (Move.beginCallback v : Move α ε).Fits quiet :=
  ⟨rfl, fun _ => rfl⟩

theorem fits_finish (i : Nat) (ended : Except Panic Buffer) :
    (Move.finish i ended : Move α ε).Fits quiet := ⟨rfl, fun _ => rfl⟩

section Rounds

variable {invoke : Value → Act (Except Fault Unit)} {rounds n : Nat}

theorem drainWith_none (htake : st.exchange.takeReverse = (none, x)) :
    drainWith invoke (rounds + 1) n st = .returned (.ok n) (st.put x) := by
  rw [drainWith, htake]

theorem drainWith_ok (htake : st.exchange.takeReverse = (some v, x))
    (hcall : invoke v (st.put x) = .returned (.ok ()) st') :
    drainWith invoke (rounds + 1) n st = drainWith invoke rounds (n + 1) st' := by
  rw [drainWith, htake]
  dsimp only
  rw [hcall]
  rfl

theorem drainWith_error {e : Fault} (htake : st.exchange.takeReverse = (some v, x))
    (hcall : invoke v (st.put x) = .returned (.error e) st') :
    drainWith invoke (rounds + 1) n st = .returned (.error e) st' := by
  rw [drainWith, htake]
  dsimp only
  rw [hcall]
  rfl

theorem drainWith_unwound {p : Panic} (htake : st.exchange.takeReverse = (some v, x))
    (hcall : invoke v (st.put x) = .unwound p st') :
    drainWith invoke (rounds + 1) n st = .unwound p st' := by
  rw [drainWith, htake]
  dsimp only
  rw [hcall]
  rfl

theorem drainWith_exhausted (htake : st.exchange.takeReverse = (some v, x))
    (hcall : invoke v (st.put x) = .exhausted) :
    drainWith invoke (rounds + 1) n st = .exhausted := by
  rw [drainWith, htake]
  dsimp only
  rw [hcall]
  rfl

end Rounds

namespace At

theorem take (h : At quiet thread f ms own st) : ∃ j, Floor.run thread ms f =
    (f.onStage st).rest j ∧ (Floor.run thread ms f).apply thread .take =
      (.reply (.value st.exchange.takeReverse.1),
        (f.onStage (st.put st.exchange.takeReverse.2)).rest j) := by
  obtain ⟨j, hrun⟩ := h.run
  refine ⟨j, hrun, ?_⟩
  rw [hrun]
  exact apply_takeReverse thread h.live (f.rest j)

theorem live_taken (h : At quiet thread f ms own st)
    (htake : st.exchange.takeReverse = (some v, x)) : x.isGone = false := by
  have hvia : Via α ε quiet thread st (st.put st.exchange.takeReverse.2) := .takeReverse h.live
  rw [htake] at hvia
  exact hvia.isGone.trans h.live

theorem empties (h : At quiet thread f ms own st) (htake : st.exchange.takeReverse = (none, x)) :
    ∃ ms', Over quiet thread f ms' own .emptied (st.put x) := by
  obtain ⟨j, -, happly⟩ := h.take
  rw [htake] at happly
  refine ⟨ms ++ [.take], .emptied h.draining (congrArg Prod.fst happly),
    List.forall_mem_append.2 ⟨h.fits, List.forall_mem_singleton.2 fits_take⟩, j, ?_⟩
  rw [Floor.run_concat, happly]

theorem starts (h : At quiet thread f ms own st)
    (htake : st.exchange.takeReverse = (some v, x))
    (hread : x.callbacks.read v = .ok call)
    (hvia : Via α ε quiet thread ((st.put x).see (.call call.callable.body.label call.args)) st') :
    ∃ ms' i j, Floor.Starts thread (Floor.run thread ms f) v ms' i ∧
      (∀ m ∈ ms', Move.Fits quiet m) ∧ ∀ ended,
        (Floor.run thread (ms ++ ms') f).apply thread (.finish i ended) =
          ((match ended with | .ok _ => .reply .done | .error p => .unwound p),
            (f.onStage (st'.afterCallback ended)).rest j) := by
  obtain ⟨j, hrun, happly⟩ := h.take
  rw [htake] at happly
  have htaken : Floor.run thread [.take] (Floor.run thread ms f) =
      (f.rest j).onStage (st.put x) := congrArg Prod.snd happly
  have hlive : (st.put x).exchange.isGone = false := h.live_taken htake
  have hbegin := apply_beginCallback thread hlive hread (f.rest j)
  obtain ⟨inside, k, hinside, hplays⟩ := hvia.moves ((f.rest j).launch .callback)
  refine ⟨.take :: [] ++ .beginCallback v :: inside, (f.rest j).running.length, j + (k + 1),
    ?_, ?_, fun ended => ?_⟩
  · have hi : (f.rest j).running.length =
        (Floor.run thread (.take :: []) (Floor.run thread ms f)).running.length := by
      rw [htaken]
      rfl
    rw [hi]
    refine .intro [] inside (congrArg Prod.fst happly) ?_
    rw [htaken, hbegin]
  · refine List.forall_mem_append.2 ⟨List.forall_mem_singleton.2 fits_take,
      List.forall_mem_cons.2 ⟨fits_beginCallback v, hinside⟩⟩
  · have hover : Floor.run thread (ms ++ (.take :: [] ++ .beginCallback v :: inside)) f =
        (((f.rest j).launch .callback).onStage st').rest k := by
      rw [Floor.run_append, Floor.run_append, htaken]
      change Floor.run thread inside (Floor.apply thread _ (.beginCallback v)).2 = _
      rw [hbegin]
      exact hplays
    rw [hover, apply_finish]
    exact congrArg (Prod.mk _) (Floor.rest_rest (f.onStage _) j (k + 1))

theorem refuses (h : At quiet thread f ms own st) {e : Fault}
    (htake : st.exchange.takeReverse = (some v, x)) (hread : x.callbacks.read v = .error e) :
    ∃ ms', Over quiet thread f ms' (own ++ [v]) (.refused e)
      (st.put ((x.record .callbackFailed).note (.reverseCallFailed e))) := by
  obtain ⟨j, hrun, happly⟩ := h.take
  rw [htake] at happly
  have hlive : (st.put x).exchange.isGone = false := h.live_taken htake
  have htaken : Floor.run thread (ms ++ .take :: []) f = (f.rest j).onStage (st.put x) := by
    rw [Floor.run_concat, happly]
    rfl
  have hbegin := apply_refused thread hlive hread (f.rest j)
  refine ⟨ms ++ .take :: [] ++ [.beginCallback v],
    .refused h.draining (congrArg Prod.fst happly) ?_, ?_, j, ?_⟩
  · rw [htaken, hbegin]
  · refine List.forall_mem_append.2 ⟨List.forall_mem_append.2 ⟨h.fits, ?_⟩, ?_⟩
    · exact List.forall_mem_singleton.2 fits_take
    · exact List.forall_mem_singleton.2 (fits_beginCallback v)
  · rw [Floor.run_concat, htaken, hbegin]
    rfl

theorem ran (h : At quiet thread f ms own st) (htake : st.exchange.takeReverse = (some v, x))
    (hread : x.callbacks.read v = .ok call)
    (hvia : Via α ε quiet thread ((st.put x).see (.call call.callable.body.label call.args)) st') :
    ∃ ms', At quiet thread f ms' (own ++ [v]) (st'.put (st'.exchange.record .callbackInvoked)) := by
  obtain ⟨ms', i, j, hstarts, hfits, hfinish⟩ := h.starts htake hread hvia
  have hdone := hfinish (.ok ⟨[]⟩)
  refine ⟨ms ++ ms' ++ [.finish i (.ok ⟨[]⟩)], .ran h.draining hstarts (congrArg Prod.fst hdone),
    ?_, ⟨j, ?_⟩, ?_⟩
  · exact List.forall_mem_append.2 ⟨List.forall_mem_append.2 ⟨h.fits, hfits⟩,
      List.forall_mem_singleton.2 (fits_finish i _)⟩
  · rw [Floor.run_concat, hdone]
    rfl
  · exact hvia.isGone.trans (h.live_taken htake)

theorem aborts (h : At quiet thread f ms own st) (p : Panic)
    (htake : st.exchange.takeReverse = (some v, x)) (hread : x.callbacks.read v = .ok call)
    (hvia : Via α ε quiet thread ((st.put x).see (.call call.callable.body.label call.args)) st') :
    ∃ ms', Over quiet thread f ms' (own ++ [v]) (.aborted p) st' := by
  obtain ⟨ms', i, j, hstarts, hfits, hfinish⟩ := h.starts htake hread hvia
  have hover := hfinish (.error p)
  refine ⟨ms ++ ms' ++ [.finish i (.error p)],
    .aborted h.draining hstarts (congrArg Prod.fst hover), ?_, j, ?_⟩
  · exact List.forall_mem_append.2 ⟨List.forall_mem_append.2 ⟨h.fits, hfits⟩,
      List.forall_mem_singleton.2 (fits_finish i _)⟩
  · rw [Floor.run_concat, hover]
    rfl

end At

/-- What a drain returns is how it ends. -/
theorem over_of_drainWith {bound : Nat}
    (hcalls : ∀ st₁ v x, Looks st st₁ → st₁.exchange.takeReverse = (some v, x) →
      x.isGone = false → Stage.invoke bound v (st₁.put x) ≠ .exhausted →
        Invoked α ε quiet thread v (st₁.put x) (Stage.invoke bound v (st₁.put x))) (rounds : Nat) :
    ∀ {st₁ ms own}, Looks st st₁ → At quiet thread f ms own st₁ →
      drainWith (Stage.invoke bound) rounds own.length st₁ ≠ .exhausted →
        ∃ ms' own' result st', Over quiet thread f ms' own' result st' ∧
          Amounts own' (drainWith (Stage.invoke bound) rounds own.length st₁) result st' := by
  induction rounds with
  | zero => exact fun _ _ hends => absurd rfl hends
  | succ rounds ih =>
    intro st₁ ms own hlooks hat hends
    rcases htake : st₁.exchange.takeReverse with ⟨found, x⟩
    cases found with
    | none =>
      obtain ⟨ms', hover⟩ := hat.empties htake
      rw [drainWith_none htake]
      exact ⟨ms', own, .emptied, _, hover, .emptied _⟩
    | some v =>
      have hcall := hcalls st₁ v x hlooks htake (hat.live_taken htake)
      generalize ho : Stage.invoke bound v (st₁.put x) = o at hcall
      have hne : o ≠ .exhausted := by
        rintro rfl
        exact hends (drainWith_exhausted htake ho)
      cases hcall hne with
      | @refused e hread =>
        obtain ⟨ms', hover⟩ := hat.refuses htake hread
        rw [drainWith_error htake ho]
        exact ⟨ms', own ++ [v], .refused e, _, hover, .refused e _⟩
      | ran hread hvia =>
        obtain ⟨ms', hran⟩ := hat.ran htake hread hvia
        have hnext := ih (hlooks.next htake ho) hran
        rw [List.length_append] at hnext
        rw [drainWith_ok htake ho] at hends ⊢
        exact hnext hends
      | @aborted call st' p hread hvia =>
        obtain ⟨ms', hover⟩ := hat.aborts p htake hread hvia
        rw [drainWith_unwound htake ho]
        exact ⟨ms', own ++ [v], .aborted p, st', hover, .aborted p st'⟩

theorem at_start (hlive : f.exchange.isGone = false) :
    At quiet thread f [] [] f.session.stage where
  draining := .start
  fits := by simp
  run := ⟨0, (f.rest_zero).symm⟩
  live := hlive

theorem over_of_drain {bound : Nat} (hlive : f.exchange.isGone = false)
    (hends : Stage.drain bound f.session.stage ≠ .exhausted) :
    ∃ ms own result st, Over false thread f ms own result st ∧
      Amounts own (Stage.drain bound f.session.stage) result st :=
  over_of_drainWith (fun _ _ _ _ _ _ hcall => invoked bound hcall) bound .start (at_start hlive)
    hends

theorem handedIn_of_fits (hms : ∀ m ∈ ms, Move.Fits true m) :
    handedIn (Floor.history thread ms f) = [] := by
  induction ms generalizing f with
  | nil => rfl
  | cons m ms ih =>
    obtain ⟨hm, hms⟩ := List.forall_mem_cons.1 hms
    rw [Floor.history, handedIn_cons, Move.handsIn?_of_postTo? (hm.2 rfl), ih hms]
    rfl

theorem opens_of_fits (hms : ∀ m ∈ ms, Move.Fits quiet m) : ms.countP Move.opensPort = 0 := by
  rw [List.countP_eq_zero]
  intro m hm
  rw [(hms m hm).1]
  exact Bool.false_ne_true

theorem takenOut_length_le (thread : Option String) (hs : f.Sound 0)
    (hms : ∀ m ∈ ms, Move.Fits true m) :
    (takenOut (Floor.history thread ms f)).length ≤ f.exchange.reverseQueue.length := by
  have hroom : f.Sound (ms.countP Move.opensPort + 0) := by
    rw [opens_of_fits hms]
    exact hs
  exact (Floor.takenOut_le hroom thread (handedIn_of_fits hms)).length_le

/-- Each call that a drain makes ends, and hands nothing in. -/
def EndsQuietly (st : Stage) : Prop :=
  ∀ st₁ v x, Looks st st₁ → st₁.exchange.takeReverse = (some v, x) →
    ∃ bound, Stage.invoke bound v (st₁.put x) ≠ .exhausted ∧
      invokeThroughout Quiet bound v (st₁.put x)

theorem EndsQuietly.invoked (thread : Option String) (h : EndsQuietly st) (hlooks : Looks st st₁)
    (htake : st₁.exchange.takeReverse = (some v, x)) (hlive : x.isGone = false) :
    ∃ bound o, o ≠ .exhausted ∧ Invoked α ε true thread v (st₁.put x) o ∧
      ∀ b, bound ≤ b → Stage.invoke b v (st₁.put x) = o := by
  obtain ⟨bound, hends, hquiet⟩ := h st₁ v x hlooks htake
  exact ⟨bound, _, hends, invoked_quiet bound hlive hquiet hends,
    fun b hb => ((invoke_within hb v (st₁.put x)).eq hends).symm⟩

theorem EndsQuietly.invoked_below (h : EndsQuietly st) (hlooks : Looks st st₁)
    (htake : st₁.exchange.takeReverse = (some v, x)) (hlive : x.isGone = false) {b : Nat}
    (hends : Stage.invoke b v (st₁.put x) ≠ .exhausted) :
    Invoked α ε true thread v (st₁.put x) (Stage.invoke b v (st₁.put x)) := by
  obtain ⟨bound, hbound, hquiet⟩ := h st₁ v x hlooks htake
  rw [invoke_ends_alike hends hbound]
  exact invoked_quiet bound hlive hquiet hbound

theorem EndsQuietly.of_one {bound : Nat} (htake : st.exchange.takeReverse = (some v, x))
    (hcall : Stage.invoke bound v (st.put x) = .returned (.ok ()) st')
    (hquiet : invokeThroughout Quiet bound v (st.put x))
    (hnone : st'.exchange.takeReverse.1 = none) : EndsQuietly st := by
  have hlooks : ∀ st₁, Looks st st₁ → st₁ = st ∨ st₁.exchange.takeReverse.1 = none := by
    intro st₁ h
    induction h with
    | start => exact .inl rfl
    | next _ htake' hcall' ih =>
      rcases ih with rfl | hno
      · rw [htake] at htake'
        cases htake'
        have hsame := invoke_ends_alike (by rw [hcall']; simp) (by rw [hcall]; simp)
        rw [hcall', hcall] at hsame
        cases hsame
        exact .inr hnone
      · rw [htake'] at hno
        cases hno
  intro st₁ w y h htake'
  rcases hlooks st₁ h with rfl | hno
  · rw [htake] at htake'
    cases htake'
    exact ⟨bound, by rw [hcall]; simp, hquiet⟩
  · rw [htake'] at hno
    cases hno

/-- A drain that has not taken all yet ends within as many rounds as there are messages left. -/
theorem drainWith_ends (thread : Option String) (hs : f.Sound 0) (h : EndsQuietly st) (left : Nat) :
    ∀ {st₁ ms own}, Looks st st₁ → At true thread f ms own st₁ →
      own.length + left = f.exchange.reverseQueue.length + 1 →
        ∃ bound o, o ≠ .exhausted ∧ ∀ b rounds, bound ≤ b → left ≤ rounds →
          drainWith (Stage.invoke b) rounds own.length st₁ = o := by
  induction left with
  | zero =>
    intro st₁ ms own _ hat hlength
    have htaken := hat.draining.sublist.length_le
    have hle := takenOut_length_le thread hs hat.fits
    omega
  | succ left ih =>
    intro st₁ ms own hlooks hat hlength
    have hround : ∀ rounds, left + 1 ≤ rounds → ∃ r, left ≤ r ∧ rounds = r + 1 := by
      intro rounds hr
      exact ⟨rounds - 1, by omega, by omega⟩
    rcases htake : st₁.exchange.takeReverse with ⟨found, x⟩
    cases found with
    | none =>
      refine ⟨0, .returned (.ok own.length) (st₁.put x), by simp, fun b rounds _ hr => ?_⟩
      obtain ⟨r, -, rfl⟩ := hround rounds hr
      exact drainWith_none htake
    | some v =>
      obtain ⟨bound, o, hends, hcall, hinvoke⟩ :=
        h.invoked (α := α) (ε := ε) thread hlooks htake (hat.live_taken htake)
      cases hcall with
      | @refused e hread =>
        refine ⟨bound, .returned (.error e)
          (st₁.put ((x.record .callbackFailed).note (.reverseCallFailed e))), by simp,
          fun b rounds hb hr => ?_⟩
        obtain ⟨r, -, rfl⟩ := hround rounds hr
        exact drainWith_error htake (hinvoke b hb)
      | @aborted call st' p hread hvia =>
        refine ⟨bound, .unwound p st', by simp, fun b rounds hb hr => ?_⟩
        obtain ⟨r, -, rfl⟩ := hround rounds hr
        exact drainWith_unwound htake (hinvoke b hb)
      | ran hread hvia =>
        obtain ⟨ms', hran⟩ := hat.ran htake hread hvia
        have hlast := ih (hlooks.next htake (hinvoke bound (Nat.le_refl _))) hran
        rw [List.length_append, List.length_singleton] at hlast
        obtain ⟨bound', o', hends', hrest⟩ := hlast (by omega)
        refine ⟨max bound bound', o', hends', fun b rounds hb hr => ?_⟩
        obtain ⟨r, hleft, rfl⟩ := hround rounds hr
        rw [drainWith_ok htake (hinvoke b (by omega))]
        exact hrest b r (by omega) hleft

/-- A drain whose calls end and hand nothing in ends, and below every bound that is large enough it
ends in the same way. No more is taken in its course than was queued. -/
theorem drain_ends (hs : f.Sound 0) (hlive : f.exchange.isGone = false)
    (h : EndsQuietly f.session.stage) :
    ∃ bound o, (∀ b, bound ≤ b → Stage.drain b f.session.stage = o) ∧
      ∃ ms own result st, Over true thread f ms own result st ∧ Amounts own o result st ∧
        (takenOut (Floor.history thread ms f)).length ≤ f.exchange.reverseQueue.length := by
  obtain ⟨bound, o, hends, hdrain⟩ := drainWith_ends thread hs h
    (f.exchange.reverseQueue.length + 1) .start (at_start hlive) (Nat.zero_add _)
  have hall : ∀ b, max bound (f.exchange.reverseQueue.length + 1) ≤ b →
      Stage.drain b f.session.stage = o := fun b hb => hdrain b b (by omega) (by omega)
  rw [← hall _ (Nat.le_refl _)] at hends
  have hcalls : ∀ b st₁ v x, Looks f.session.stage st₁ →
      st₁.exchange.takeReverse = (some v, x) → x.isGone = false →
        Stage.invoke b v (st₁.put x) ≠ .exhausted →
          Invoked α ε true thread v (st₁.put x) (Stage.invoke b v (st₁.put x)) :=
    fun _ _ _ _ hlooks htake hgone hcall => h.invoked_below hlooks htake hgone hcall
  obtain ⟨ms, own, result, st, hover, hamounts⟩ :=
    over_of_drainWith (hcalls _) _ .start (at_start hlive) hends
  have hsame := hall _ (Nat.le_refl _)
  rw [Stage.drain] at hsame
  exact ⟨_, o, hall, ms, own, result, st, hover, hsame ▸ hamounts,
    takenOut_length_le thread hs hover.fits⟩

end Stage

namespace Floor

/-- After every run, what was accepted on the port for reverse calls is what was taken from it and
then what is queued. A drain that begins then, whatever other moves come between its own, has taken
its messages in the order in which messages were taken at all. It ends with nothing left, after all
of them have run to their ends, or with the last of them, which is refused without anything being
started or which aborts; what is queued at that moment stays so. What a drain returns is how many it
took in the first case, the fault in the second and the abort in the third. If each call that it
makes ends and hands nothing in, then it ends itself, below every bound that is large enough, and no
more messages are taken in its course, by itself or by others, than were queued. -/
theorem run_takes_in_order {s : Settings} {x : Exchange} (hx : Exchange.create s = .ok x)
    (thread : Option String) (ms : List (Move α ε))
    (hfew : ms.countP Move.opensPort + 1 < PortId.supply) :
    let f := run thread ms (start x)
    let st := f.session.stage
    handedIn (history thread ms (start x)) =
        takenOut (history thread ms (start x)) ++ f.exchange.reverseQueue ∧
    (∀ ms' own result, Drained thread f ms' own result →
      own.Sublist (takenOut (history thread ms' f)) ∧ LeftBy thread f ms' own result) ∧
    (f.exchange.isGone = false → ∀ bound, Stage.drain bound st ≠ .exhausted →
      ∃ ms' own result st', Stage.Over false thread f ms' own result st' ∧
        Stage.Amounts own (Stage.drain bound st) result st') ∧
    (f.exchange.isGone = false → st.EndsQuietly →
      ∃ bound o, (∀ b, bound ≤ b → Stage.drain b st = o) ∧
        ∃ ms' own result st', Stage.Over true thread f ms' own result st' ∧
          Stage.Amounts own o result st' ∧
          (takenOut (history thread ms' f)).length ≤ f.exchange.reverseQueue.length) := by
  intro f st
  have hs : (start x : Floor α ε).Sound (ms.countP Move.opensPort + 0) := sound_start hx hfew
  have hqueue := reverseQueue_run hs thread
  rw [reverseQueue_start hx, List.nil_append] at hqueue
  refine ⟨hqueue, fun ms' own result h => ⟨h.sublist, h.leftBy⟩, ?_, ?_⟩
  · exact fun hlive bound hends => Stage.over_of_drain hlive hends
  · exact fun hlive hquiet => Stage.drain_ends (hs.run thread) hlive hquiet

/-- A callback that drains the queue itself takes the second of two calls, so that the drain that
runs it takes the first one only. -/
theorem run_takes_in_order_nested : ∃ x, Exchange.create .standard = .ok x ∧
    let outer : Value := .list [.callback ⟨1⟩]
    let inner : Value := .list [.callback ⟨2⟩]
    let ms : List (Move Unit Unit) :=
      [.step (.act (.register .nullary "outer" [.drain])) rfl,
        .step (.act (.register .nullary "inner" [])) rfl,
        .step (.act (.reverse outer)) rfl, .step (.act (.reverse inner)) rfl]
    let f := run none ms (start x)
    ms.countP Move.opensPort + 1 < PortId.supply ∧ f.exchange.isGone = false ∧
      f.session.stage.EndsQuietly ∧ f.exchange.reverseQueue = [outer, inner] ∧
      ∃ ms' own, Drained none f ms' own .emptied ∧ own.length = 1 ∧
        (takenOut (history none ms' f)).length ≤ 2 ∧
        (run none ms' f).exchange.reverseQueue = [] := by
  obtain ⟨x, hx⟩ : ∃ x, Exchange.create .standard = .ok x := ⟨_, rfl⟩
  refine ⟨x, hx, ?_⟩
  intro outer inner ms f
  have hfew : ms.countP Move.opensPort + 1 < PortId.supply := by decide
  have hlive : f.exchange.isGone = false := by
    cases hx
    rfl
  have hqueue : f.exchange.reverseQueue = [outer, inner] := by
    cases hx
    rfl
  have hdrain : ∃ st, Stage.drain 4 f.session.stage = .returned (.ok 1) st := by
    cases hx
    exact ⟨_, rfl⟩
  -- the first call ends with nothing left to be taken
  have hfirst : ∃ y st, f.session.stage.exchange.takeReverse = (some outer, y) ∧
      Stage.invoke 4 outer (f.session.stage.put y) = .returned (.ok ()) st ∧
        st.exchange.takeReverse.1 = none ∧
          Stage.invokeThroughout Stage.Quiet 4 outer (f.session.stage.put y) := by
    cases hx
    refine ⟨_, _, rfl, rfl, rfl, ?_⟩
    intro call hread
    cases hread
    refine ⟨rfl, ?_, fun _ => ?_, fun _ _ _ => trivial⟩
    · intro v hv
      cases hv
    · intro v y htake
      cases htake
      refine ⟨?_, ?_⟩
      · intro call hread
        cases hread
        trivial
      · intro st' hcall
        cases hcall
        intro v y htake
        cases htake
  have hquiet : f.session.stage.EndsQuietly := by
    obtain ⟨y, st, htake, hcall, hnone, hthroughout⟩ := hfirst
    exact .of_one htake hcall hthroughout hnone
  obtain ⟨-, hdrains, -, hends⟩ := run_takes_in_order hx none ms hfew
  obtain ⟨bound, o, hall, ms', own, result, st', hover, hamounts, hle⟩ := hends hlive hquiet
  obtain ⟨st, hst⟩ := hdrain
  have ho : o = .returned (.ok 1) st := by
    have h := (Stage.drain_within (Nat.le_max_right bound 4) _).eq (by rw [hst]; simp)
    rw [hall _ (Nat.le_max_left bound 4)] at h
    exact h.symm.trans hst
  subst ho
  obtain ⟨rfl, hlength⟩ := hamounts.of_ok
  rw [hqueue] at hle
  exact ⟨hfew, hlive, hquiet, hqueue, ms', own, hover.drained, hlength, hle,
    (hdrains ms' own _ hover.drained).2⟩

end Floor

end CallExchange
