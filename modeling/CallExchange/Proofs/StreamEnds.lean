import CallExchange.Codec.Tagged
import CallExchange.Proofs.Floor.Threads

set_option autoImplicit false

/-!
# The end of a stream

Three things decide a pull: the failure that a stream still keeps of its call, whether the stream is
finished, and what is in its inbox. The failure is looked at first. So a stream that was closed with
a failure in it says that it is finished and gives the failure nevertheless, once; any other
finished stream finds the end whenever it is pulled from, whatever has been posted to its port.
-/

namespace CallExchange

variable {α ε : Type}

def Move.pullsFrom (n : Nat) : Move α ε → Bool
  | .step (.next i) _ | .step (.nextTimeout i _) _ => i = n
  | _ => false

theorem Move.place?_of_pullsFrom {n : Nat} {m : Move α ε} (h : m.pullsFrom n = true) :
    m.place? = some ⟨.streams, n⟩ := by
  unfold pullsFrom at h
  split at h <;> first | cases h | rw [← of_decide_eq_true h]; rfl

theorem Move.onStream_cases {n : Nat} {m : Move α ε} (h : m.place? = some ⟨.streams, n⟩) :
    m.pullsFrom n = true ∨ m = .step (.closeStream n) rfl ∨ m = .step (.dropStream n) rfl := by
  unfold place? at h
  split at h
  case h_6 | h_7 =>
    cases h
    exact .inl (decide_eq_true rfl)
  case h_8 =>
    cases h
    exact .inr (.inl rfl)
  case h_9 =>
    cases h
    exact .inr (.inr rfl)
  all_goals cases h

def Stream.parting (c : Stream α ε) : Answer α ε :=
  match c.failure with
  | some failure => .result (.error failure)
  | none => .ended

theorem Stream.parting_eq_ended {c : Stream α ε} : c.parting = .ended ↔ c.failure = none := by
  unfold parting
  cases c.failure <;> simp

namespace Floor

variable {f f' : Floor α ε} {c c' : Stream α ε} {m : Move α ε} {n : Nat} {thread : Option String}

theorem stream_lt (hc : f.session.streams[n]?.join = some c) : n < f.session.streams.length := by
  simpa [table] using lt_of_handle? (handle?_stream hc)

theorem stream_set (hc : f.session.streams[n]?.join = some c) (o : Option (Stream α ε)) :
    (f.session.streams.set n o)[n]?.join = o := by
  rw [List.getElem?_set_self (stream_lt hc)]
  rfl

/-- A pull takes the failure out and gives it, and finds the end if there is none. -/
theorem pull_finished (thread : Option String) (hc : f.session.streams[n]?.join = some c)
    (hfinished : c.finished = true) (hm : m.pullsFrom n = true) :
    (f.apply thread m).1 = c.parting ∧
      (f.apply thread m).2.session.streams[n]?.join = some { c with failure := none } := by
  have hpull : ∀ (g : Inbox → Except Panic (Option Inbox.Received × Inbox)) (late : Answer α ε),
      let t := f.session.pullStream n (Stream.pullBy thread g) (Session.answerPull late)
      t.1 = c.parting ∧ t.2.streams[n]?.join = some { c with failure := none } := by
    intro g late
    have hset := stream_set hc
    obtain ⟨port, codec, task, failure, finished⟩ := c
    subst hfinished
    rw [Session.pullStream, Session.withHandle, hc]
    cases failure with
    | some | none => exact ⟨rfl, hset _⟩
  unfold Move.pullsFrom at hm
  split at hm
  · cases of_decide_eq_true hm
    exact hpull _ _
  · cases of_decide_eq_true hm
    exact hpull _ _
  · cases hm

theorem closeStream_apply (thread : Option String)
    (hel : (Step.closeStream n : Step α ε).isElementary = true)
    (hc : f.session.streams[n]?.join = some c) :
    (f.apply thread (.step (.closeStream n) hel)).2.session.streams[n]?.join =
      some { c with finished := true } := by
  have hclosed : (c.close f.session.exchange).1 = { c with finished := true } := by
    obtain ⟨port, codec, task, failure, finished⟩ := c
    cases finished <;> rfl
  change (f.session.withHandle f.session.streams n _).2.streams[n]?.join = _
  rw [Session.withHandle, hc]
  change (f.session.streams.set n (some (c.close f.session.exchange).1))[n]?.join = _
  rw [stream_set hc, hclosed]

theorem dropStream_apply (thread : Option String)
    (hel : (Step.dropStream n : Step α ε).isElementary = true)
    (hc : f.session.streams[n]?.join = some c) :
    (f.apply thread (.step (.dropStream n) hel)).2.session.streams[n]?.join = none := by
  change (f.session.withHandle f.session.streams n _).2.streams[n]?.join = _
  rw [Session.withHandle, hc]
  exact stream_set hc none

theorem finished_apply (thread : Option String) (m : Move α ε)
    (hc : f.session.streams[n]?.join = some c) (hfinished : c.finished = true) :
    (f.apply thread m).2.session.streams[n]?.join = none ∨
      (f.apply thread m).2.session.streams[n]?.join =
        some { c with failure := if m.pullsFrom n then none else c.failure } := by
  by_cases hm : m.place? = some ⟨.streams, n⟩
  · rcases Move.onStream_cases hm with hpull | rfl | rfl
    · rw [hpull]
      exact .inr (pull_finished thread hc hfinished hpull).2
    · have hsame : { c with finished := true } = c := by
        rw [← hfinished]
      rw [closeStream_apply thread rfl hc, hsame]
      exact .inr rfl
    · exact .inl (dropStream_apply thread rfl hc)
  · have hpull : m.pullsFrom n = false :=
      Bool.eq_false_iff.2 fun h => hm (Move.place?_of_pullsFrom h)
    rw [hpull]
    exact .inr ((f.becomes_apply thread m).keepsStream hm hc)

def anyPull (n : Nat) (ms : List (Option String × Move α ε)) : Bool :=
  ms.any fun e => e.2.pullsFrom n

variable {past : List (Option String × Move α ε)}

theorem runBy_none (hn : n < f.session.streams.length) (hc : f.session.streams[n]?.join = none) :
    (runBy past f).session.streams[n]?.join = none := by
  cases hc' : (runBy past f).session.streams[n]?.join with
  | none => rfl
  | some c' =>
    obtain ⟨c, hsome, -⟩ := stream_runBy hn hc'
    rw [hc] at hsome
    cases hsome

/-- Whatever is done, a finished stream stays as it is, up to the one failure in it. -/
theorem finished_runBy (hc : f.session.streams[n]?.join = some c) (hfinished : c.finished = true)
    (hc' : (runBy past f).session.streams[n]?.join = some c') :
    c' = { c with failure := if anyPull n past then none else c.failure } := by
  induction past generalizing f c with
  | nil => exact Option.some.inj (hc'.symm.trans hc)
  | cons e past ih =>
    rcases finished_apply e.1 e.2 hc hfinished with hnone | hsome
    · have hlt := Nat.lt_of_lt_of_le (stream_lt hc) (shelves_apply f e.1 e.2).streams.length_le
      have hgone : (runBy past (f.apply e.1 e.2).2).session.streams[n]?.join = none :=
        runBy_none hlt hnone
      rw [runBy, List.foldl_cons, ← runBy, hgone] at hc'
      cases hc'
    · have hany : anyPull n (e :: past) = (e.2.pullsFrom n || anyPull n past) := rfl
      rw [ih hsome hfinished hc', hany]
      cases e.2.pullsFrom n with
      | false => rfl
      | true => simp

/-- The stream `n` has just been closed, or it says that it is finished. -/
inductive Concluded (n : Nat) : Floor α ε → Prop
  | closed (f : Floor α ε) (thread : Option String) :
      Concluded n (f.apply thread (.step (.closeStream n) rfl)).2
  | finished {f : Floor α ε} {c : Stream α ε} (hc : f.session.streams[n]?.join = some c)
      (hfinished : c.finished = true) : Concluded n f

theorem Concluded.isFinished (h : f.Concluded n) (hc : f.session.streams[n]?.join = some c) :
    c.finished = true := by
  cases h with
  | closed f thread =>
    cases hbefore : f.session.streams[n]?.join with
    | none =>
      have hnone :
          (f.apply thread (.step (.closeStream n) rfl)).2.session.streams[n]?.join = none := by
        change (f.session.withHandle f.session.streams n _).2.streams[n]?.join = none
        rw [Session.withHandle, hbefore]
        exact hbefore
      rw [hnone] at hc
      cases hc
    | some c₀ =>
      rw [closeStream_apply thread rfl hbefore] at hc
      cases hc
      rfl
  | finished hc₀ hfinished =>
    rw [hc₀] at hc
    cases hc
    exact hfinished

/-- A stream that was closed or says that it is finished stays finished, and whoever pulls from it,
with a deadline or without, finds the end, unless a failure of its call is still in it: that is
given by the first pull. -/
theorem runBy_stays_finished (h : f.Concluded n) (hc : f.session.streams[n]?.join = some c) :
    (∀ past c', (runBy past f).session.streams[n]?.join = some c' → c'.finished = true ∧
      ∀ thread m, m.pullsFrom n = true → ((runBy past f).apply thread m).1 =
        if anyPull n past then .ended else c.parting) ∧
    ((∀ past c', (runBy past f).session.streams[n]?.join = some c' →
      ∀ thread m, m.pullsFrom n = true → ((runBy past f).apply thread m).1 = .ended) ↔
        c.failure = none) := by
  have hfinished := h.isFinished hc
  have hall : ∀ past c', (runBy past f).session.streams[n]?.join = some c' → c'.finished = true ∧
      ∀ thread m, m.pullsFrom n = true → ((runBy past f).apply thread m).1 =
        if anyPull n past then .ended else c.parting := by
    intro past c' hc'
    have hleft := finished_runBy hc hfinished hc'
    have hfinished' : c'.finished = true := by
      rw [hleft]
      exact hfinished
    refine ⟨hfinished', fun thread m hm => ?_⟩
    rw [(pull_finished thread hc' hfinished' hm).1, hleft, Stream.parting]
    cases anyPull n past <;> rfl
  refine ⟨hall, fun hend => ?_, fun hnone past c' hc' thread m hm => ?_⟩
  · have hpull : (Move.step (.next n) rfl : Move α ε).pullsFrom n = true := decide_eq_true rfl
    have hfirst := (hall [] c hc).2 none _ hpull
    rw [hend [] c hc none _ hpull] at hfirst
    exact Stream.parting_eq_ended.1 hfirst.symm
  · rw [(hall past c' hc').2 thread m hm, Stream.parting_eq_ended.2 hnone, ite_self]

/-- A stream is closed with a value in its inbox, and another one is posted afterwards. -/
theorem runBy_stays_finished_after_close : ∃ x, Exchange.create .standard = .ok x ∧
    let codec : Codec Value Unit :=
      ⟨fun v => .ok (.success v), fun _ => false, fun _ => .ok (.malformed "")⟩
    let before : Floor Value Unit := runBy [(none, .beginStream "task" codec),
      (none, .finish 0 (.ok ⟨[]⟩)), (none, .deliver ⟨1⟩ (.bool true))] (start x)
    let f := (before.apply none (.step (.closeStream 0) rfl)).2
    let c : Stream Value Unit := ⟨⟨⟨1⟩, PortNames.name "task" 0⟩, codec, "task", none, true⟩
    let past : List (Option String × Move Value Unit) := [(some "other", .deliver ⟨1⟩ (.bool false))]
    (before.exchange.inbox ⟨1⟩).queue = [.bool true] ∧ f.Concluded 0 ∧
      f.session.streams[0]?.join = some c ∧ (runBy past f).session.streams[0]?.join = some c ∧
      ((runBy past f).apply none (.step (.next 0) rfl)).1 = .ended := by
  obtain ⟨x, hx⟩ : ∃ x, Exchange.create .standard = .ok x := ⟨_, rfl⟩
  refine ⟨x, hx, ?_⟩
  intro codec before f c past
  have hqueue : (before.exchange.inbox ⟨1⟩).queue = [.bool true] := by
    cases hx
    rfl
  have hover : f.Concluded 0 := .closed before none
  have hc : f.session.streams[0]?.join = some c := by
    cases hx
    rfl
  have hkept : (runBy past f).session.streams[0]?.join = some c := by
    cases hx
    rfl
  exact ⟨hqueue, hover, hc, hkept,
    (runBy_stays_finished hover hc).2.2 rfl past c hkept none (.step (.next 0) rfl) rfl⟩

/-- The entry of a stream call aborts and the stream is closed. It is finished then, and gives the
failure all the same. -/
theorem closed_stream_gives_failure : ∃ x, Exchange.create .standard = .ok x ∧
    let codec : Codec Int64 String := TaggedCodec.toCodec ⟨Value.int?, Value.text?, none⟩
    let opened := runBy [(some "main", .beginStream "d" codec),
      (some "main", .finish 0 (.error (.text "boom")))] (start x)
    let f := (opened.apply (some "main") (.step (.closeStream 0) rfl)).2
    ∃ c, f.Concluded 0 ∧ f.session.streams[0]?.join = some c ∧ c.finished = true ∧
      (f.apply (some "main") (.step (.next 0) rfl)).1 =
        .result (.error (.fatal ⟨"d#0", "boom", "main"⟩)) := by
  obtain ⟨x, hx⟩ : ∃ x, Exchange.create .standard = .ok x := ⟨_, rfl⟩
  refine ⟨x, hx, ?_⟩
  intro codec opened f
  have hname : PortNames.name "d" 0 = "d#0" := by decide
  refine ⟨⟨⟨⟨1⟩, PortNames.name "d" 0⟩, codec, "d",
    some (.fatal ⟨PortNames.name "d" 0, "boom", "main"⟩), true⟩, .closed opened _, ?_, rfl, ?_⟩
  · cases hx
    rfl
  · rw [← hname]
    cases hx
    rfl

end Floor

end CallExchange
