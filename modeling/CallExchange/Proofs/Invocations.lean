import CallExchange.Proofs.Floor.QuietScripts
import CallExchange.Proofs.Floor.Threads

set_option autoImplicit false

/-!
# Reverse calls that are made

A message asks for a call if it is a list of a registered callback and as many arguments as that one
takes. Such a call starts its callback once, with these arguments in their order. Any other message
is refused with the first reason that applies, and leaves all but the count of failed calls and the
log as it was.
-/

namespace CallExchange

variable {α ε β : Type}

def Shape.Takes (s : Shape) (n : Nat) : Prop := s.arity = none ∨ s.arity = some n

theorem Shape.pass_eq {s : Shape} {args : List Value} (h : s.Takes args.length) :
    s.pass args = args := by
  cases s with
  | variadic => rfl
  | nullary =>
    have hlength : 0 = args.length := by simpa [Takes, arity] using h
    exact (List.length_eq_zero_iff.1 hlength.symm).symm
  | unary =>
    have hlength : 1 = args.length := by simpa [Takes, arity] using h
    obtain ⟨a, rfl⟩ := List.length_eq_one_iff.1 hlength.symm
    rfl
  | binary =>
    have hlength : 2 = args.length := by simpa [Takes, arity] using h
    obtain ⟨a, b, rfl⟩ := List.length_eq_two.1 hlength.symm
    rfl

/-- What a message asks for: a call, or nothing for one of five reasons. -/
inductive Callbacks.Asks (c : Callbacks β) : Value → Except Fault (Invocation β) → Prop where
  | call (t : Token) (f : Callable β) (args : List Value) (hf : c.resolve? t = some f)
      (hn : f.shape.Takes args.length) : Asks c (.list (.callback t :: args)) (.ok ⟨f, args⟩)
  | noList (v : Value) (hv : ∀ vs, v ≠ .list vs) :
      Asks c v (.error (.malformedCallback ("expected array, got " ++ v.kind)))
  | empty : Asks c (.list []) (.error (.malformedCallback "empty message"))
  | noCallback (v : Value) (vs : List Value) (hv : ∀ t, v ≠ .callback t) :
      Asks c (.list (v :: vs))
        (.error (.malformedCallback ("first element is " ++ v.kind ++ ", not a callback")))
  | unresolved (t : Token) (args : List Value) (hf : c.resolve? t = none) :
      Asks c (.list (.callback t :: args)) (.error (.unresolvedCallback t))
  | mismatch (t : Token) (f : Callable β) (k : Nat) (args : List Value)
      (hf : c.resolve? t = some f) (hk : f.shape.arity = some k) (hn : k ≠ args.length) :
      Asks c (.list (.callback t :: args)) (.error (.arityMismatch t k args.length))

namespace Callbacks

variable {c : Callbacks β} {message : Value} {r : Except Fault (Invocation β)}

theorem asks_start (t : Token) (args : List Value) :
    c.Asks (.list (.callback t :: args)) (c.start t args) := by
  unfold Callbacks.start
  cases hf : c.resolve? t with
  | none => exact .unresolved t args hf
  | some f =>
    change c.Asks _ (f.start t args)
    unfold Callable.start
    cases hk : f.shape.arity with
    | none =>
      have htakes : f.shape.Takes args.length := .inl hk
      rw [Shape.pass_eq htakes]
      exact .call t f args hf htakes
    | some k =>
      dsimp only
      split
      · rename_i hn
        have htakes : f.shape.Takes args.length := .inr (hn ▸ hk)
        rw [Shape.pass_eq htakes]
        exact .call t f args hf htakes
      · rename_i hn
        exact .mismatch t f k args hf hk (Ne.symm hn)

theorem asks_read (c : Callbacks β) (message : Value) : c.Asks message (c.read message) := by
  unfold read
  split
  · exact asks_start _ _
  · rename_i v vs hv
    exact .noCallback v vs fun t => hv t
  · exact .empty
  · rename_i hnone hsome hempty
    refine .noList _ fun vs => ?_
    rintro rfl
    cases vs with
    | nil => exact hempty rfl
    | cons v vs => exact hsome v vs rfl

theorem Asks.read_eq (h : c.Asks message r) : c.read message = r := by
  cases h with
  | call t f args hf hn =>
    have hstart : c.read (.list (.callback t :: args)) = f.start t args := by
      rw [Callbacks.read, Callbacks.start, hf]
    rw [hstart, Callable.start, Shape.pass_eq hn]
    rcases hn with hn | hn <;> rw [hn]
    exact if_pos rfl
  | noList _ hv =>
    cases message with
    | list vs => exact absurd rfl (hv vs)
    | _ => rfl
  | empty => rfl
  | noCallback v vs hv =>
    cases v with
    | callback t => exact absurd rfl (hv t)
    | _ => rfl
  | unresolved t args hf => rw [Callbacks.read, Callbacks.start, hf]
  | mismatch t f k args hf hk hn =>
    have hstart : c.read (.list (.callback t :: args)) = f.start t args := by
      rw [Callbacks.read, Callbacks.start, hf]
    rw [hstart, Callable.start, hk]
    exact if_neg (Ne.symm hn)

/-- Every message asks for one thing only, which is what is read of it. -/
theorem asks_iff : c.Asks message r ↔ r = c.read message :=
  ⟨fun h => h.read_eq.symm, fun h => h ▸ c.asks_read message⟩

end Callbacks

/-- Whether nothing was delivered, opened, closed, taken or registered on the way from `x` to `y`:
what may differ is the counts of calls, the log and what was done to buffers. -/
structure Exchange.Untouched (x y : Exchange) : Prop where
  core : y.core = x.core
  signals : y.signals = x.signals

namespace Floor

variable {f : Floor α ε} {m : Move α ε} {ms : List (Move α ε)} {thread : Option String}

def trace (f : Floor α ε) : List Event := f.session.stage.trace

theorem made?_eq_some {call : Invocation Routine} : f.made? m = some call ↔
    ∃ message, m = .beginCallback message ∧ f.exchange.isGone = false ∧
      f.exchange.callbacks.Asks message (.ok call) := by
  constructor
  · intro h
    cases m with
    | beginCallback message =>
      change (if f.exchange.isGone then none else _) = some call at h
      split at h
      · cases h
      · rename_i hlive
        refine ⟨message, rfl, Bool.eq_false_iff.2 hlive, Callbacks.asks_iff.2 ?_⟩
        cases hread : f.exchange.callbacks.read message with
        | error e =>
          rw [hread] at h
          cases h
        | ok c =>
          rw [hread] at h
          cases h
          rfl
    | _ => cases h
  · rintro ⟨message, rfl, hlive, hasks⟩
    change (if f.exchange.isGone then none else _) = some call
    rw [hlive, ← Callbacks.asks_iff.1 hasks]
    rfl

def seen (thread : Option String) : List (Move α ε) → Floor α ε → List Event
  | [], _ => []
  | m :: ms, f => f.shown m ++ seen thread ms (f.apply thread m).2

theorem trace_apply (f : Floor α ε) (thread : Option String) (m : Move α ε) :
    (f.apply thread m).2.trace = f.trace ++ f.shown m := (f.becomes_apply thread m).trace

theorem trace_run (thread : Option String) (ms : List (Move α ε)) (f : Floor α ε) :
    (run thread ms f).trace = f.trace ++ seen thread ms f := by
  induction ms generalizing f with
  | nil => exact (List.append_nil _).symm
  | cons m ms ih =>
    change (run thread ms (f.apply thread m).2).trace = _
    rw [ih, trace_apply, seen, List.append_assoc]

structure EndsCall (f : Floor α ε) (thread : Option String) (i : Nat)
    (ended : Except Panic Buffer) : Prop where
  answer : (f.apply thread (.finish i ended)).1 =
    match ended with
    | .ok _ => .reply .done
    | .error p => .unwound p
  trace : (f.apply thread (.finish i ended)).2.trace = f.trace
  untouched : f.exchange.Untouched (f.apply thread (.finish i ended)).2.exchange

/-- A message makes a call: the callback is started with the arguments, and from there to its end
only it and others have an effect. -/
structure Makes (f : Floor α ε) (thread : Option String) (message : Value)
    (call : Invocation Routine) : Prop where
  answer : (f.apply thread (.beginCallback message)).1 = .reply .nothing
  running : (f.apply thread (.beginCallback message)).2.running = f.running ++ [some .callback]
  trace : (f.apply thread (.beginCallback message)).2.trace = f.trace ++ [.ofCall call]
  exchange : (f.apply thread (.beginCallback message)).2.exchange = f.exchange
  ends : ∀ (during : List (Option String × Move α ε)) (ended : Except Panic Buffer),
    (∀ e ∈ during, ∀ ended, e.2 ≠ .finish f.running.length ended) →
      (runBy during (f.apply thread (.beginCallback message)).2).EndsCall thread f.running.length
        ended
  whole : ∀ bound, Stage.invoke (bound + 1) message f.session.stage =
    (Stage.performAll bound none call.callable.body.body
      (f.session.stage.see (.ofCall call))).bind fun _ st =>
        .returned (.ok ()) (st.put (st.exchange.record .callbackInvoked))

/-- A message is refused: nothing is started, and nothing but the count of failed calls and the log
changes. -/
structure Refuses (f : Floor α ε) (thread : Option String) (message : Value) (e : Fault) :
    Prop where
  answer : (f.apply thread (.beginCallback message)).1 = .reply (.fault e)
  running : (f.apply thread (.beginCallback message)).2.running = f.running
  trace : (f.apply thread (.beginCallback message)).2.trace = f.trace
  untouched : f.exchange.Untouched (f.apply thread (.beginCallback message)).2.exchange
  whole : ∀ bound, Stage.invoke (bound + 1) message f.session.stage =
    .returned (.error e) (f.apply thread (.beginCallback message)).2.session.stage

def Answers (f : Floor α ε) (thread : Option String) (message : Value) :
    Except Fault (Invocation Routine) → Prop
  | .ok call => f.Makes thread message call
  | .error e => f.Refuses thread message e

theorem endsCall_finish {i : Nat} (thread : Option String)
    (hr : f.running[i]?.join = some .callback) (ended : Except Panic Buffer) :
    f.EndsCall thread i ended := by
  constructor
  · rw [finish_some thread ended hr]
    cases ended <;> rfl
  · exact (trace_apply f thread _).trans (List.append_nil _)
  · rw [finish_some thread ended hr]
    cases ended <;> exact ⟨rfl, rfl⟩

theorem makes_of_read {message : Value} {call : Invocation Routine} (thread : Option String)
    (hlive : f.exchange.isGone = false) (hread : f.exchange.callbacks.read message = .ok call) :
    f.Makes thread message call := by
  have hbegin : f.apply thread (.beginCallback message) =
      (.reply .nothing, (f.launch .callback).onStage (f.session.stage.see (.ofCall call))) :=
    Stage.apply_beginCallback thread hlive hread f
  constructor
  · rw [hbegin]
  · rw [hbegin]
    rfl
  · rw [hbegin]
    rfl
  · rw [hbegin]
    rfl
  · intro during ended hentry
    refine endsCall_finish thread (running_runBy ?_ hentry) ended
    rw [hbegin]
    exact congrArg Option.join List.getElem?_concat_length
  · intro bound
    rw [Stage.invoke, show f.session.stage.exchange.callbacks.read message = _ from hread]
    rfl

theorem refuses_of_read {message : Value} {e : Fault} (thread : Option String)
    (hlive : f.exchange.isGone = false) (hread : f.exchange.callbacks.read message = .error e) :
    f.Refuses thread message e := by
  have hbegin : f.apply thread (.beginCallback message) = (.reply (.fault e),
      f.put ((f.exchange.record .callbackFailed).note (.reverseCallFailed e))) :=
    Stage.apply_refused thread hlive hread f
  constructor
  · rw [hbegin]
  · rw [hbegin]
    rfl
  · rw [hbegin]
    rfl
  · rw [hbegin]
    exact ⟨rfl, rfl⟩
  · intro bound
    rw [hbegin, Stage.invoke, show f.session.stage.exchange.callbacks.read message = _ from hread]
    rfl

/-- In every run callbacks are started for the messages that ask for a call, once for each and with
its arguments, and for no others. Whatever state has been reached, a message asks for one thing only
and is answered by it. -/
theorem run_makes_calls (f₀ : Floor α ε) (thread : Option String) (ms : List (Move α ε)) :
    let f := run thread ms f₀
    f.trace = f₀.trace ++ seen thread ms f₀ ∧
      (∀ m call, f.made? m = some call ↔ ∃ message, m = .beginCallback message ∧
        f.exchange.isGone = false ∧ f.exchange.callbacks.Asks message (.ok call)) ∧
      ∀ message, ∃ r, (∀ r', f.exchange.callbacks.Asks message r' ↔ r' = r) ∧
        (f.exchange.isGone = false → f.Answers thread message r) := by
  intro f
  refine ⟨trace_run thread ms f₀, fun m call => made?_eq_some, fun message => ?_⟩
  refine ⟨f.exchange.callbacks.read message, fun r' => Callbacks.asks_iff, fun hlive => ?_⟩
  cases hread : f.exchange.callbacks.read message with
  | error e => exact refuses_of_read thread hlive hread
  | ok call => exact makes_of_read thread hlive hread

/-- A function of one argument, which posts when it runs, is called with one, and then without any.
-/
theorem run_makes_calls_of_unary : ∃ x, Exchange.create .standard = .ok x ∧
    let body : Script := [.reverse (.text "b")]
    let c : Callable Routine := ⟨.unary, "f", body⟩
    let ms : List (Move Unit Unit) := [.step (.act (.register .unary "f" body)) rfl]
    let f := run none ms (start x)
    let message : Value := .list [.callback ⟨1⟩, .text "a"]
    let short : Value := .list [.callback ⟨1⟩]
    f.exchange.isGone = false ∧ f.exchange.callbacks.Asks message (.ok ⟨c, [.text "a"]⟩) ∧
      f.Makes none message ⟨c, [.text "a"]⟩ ∧
      (f.apply none (.beginCallback message)).2.trace = [.call "f" [.text "a"]] ∧
      (∃ st, Stage.invoke 2 message f.session.stage = .returned (.ok ()) st ∧
        st.trace = [.call "f" [.text "a"], .reply (.delivery .queued)] ∧
        (st.exchange.inbox Exchange.reversePort).queue = [.text "b"] ∧
        st.exchange.counters.callbacksInvoked = 1) ∧
      f.Refuses none short (.arityMismatch ⟨1⟩ 1 0) := by
  obtain ⟨x, hx⟩ : ∃ x, Exchange.create .standard = .ok x := ⟨_, rfl⟩
  refine ⟨x, hx, ?_⟩
  intro body c ms f message short
  have hlive : f.exchange.isGone = false := by
    cases hx
    rfl
  have hf : f.exchange.callbacks.resolve? ⟨1⟩ = some c := by
    cases hx
    rfl
  have htrace : f.trace = [] := by
    cases hx
    rfl
  have hasks : f.exchange.callbacks.Asks message (.ok ⟨c, [.text "a"]⟩) :=
    .call ⟨1⟩ c [.text "a"] hf (.inr rfl)
  have hshort : f.exchange.callbacks.Asks short (.error (.arityMismatch ⟨1⟩ 1 0)) :=
    .mismatch ⟨1⟩ c 1 [] hf rfl (by decide)
  obtain ⟨-, -, hanswers⟩ := run_makes_calls (start x) none ms
  obtain ⟨r, hr, hmakes⟩ := hanswers message
  obtain ⟨r', hr', hrefuses⟩ := hanswers short
  cases (hr _).1 hasks
  cases (hr' _).1 hshort
  have hcall := hmakes hlive
  refine ⟨hlive, hasks, hcall, ?_, ?_, hrefuses hlive⟩
  · rw [hcall.trace, htrace]
    rfl
  · rw [hcall.whole 1]
    cases hx
    exact ⟨_, rfl, rfl, rfl, rfl⟩

end Floor

end CallExchange
