import CallExchange.Floor
import CallExchange.Proofs.Floor.Signals
import CallExchange.Proofs.Readings

set_option autoImplicit false

/-!
# What a move makes of a session

A move uses one handle, or adds one, or does something on the stage. What is kept of the lists of
handles and what is seen of scripts in the course of a run is concluded from this.
-/

namespace CallExchange

variable {α ε : Type}

/-- What may become of a list of handles when one of them is used: it is kept or given up. -/
inductive Used {γ : Type} (later : γ → γ → Prop) (l : List (Option γ)) :
    List (Option γ) → Prop where
  | same : Used later l l
  | used (n : Nat) (a a' : γ) (ha : l[n]?.join = some a) (hlater : later a a') :
      Used later l (l.set n (some a'))
  | gone (n : Nat) : Used later l (l.set n none)

namespace Used

variable {γ : Type} {later : γ → γ → Prop} {l l' : List (Option γ)} {n : Nat} {a' : γ}

theorem length_eq (h : Used later l l') : l'.length = l.length := by
  cases h with
  | same => rfl
  | used | gone => exact List.length_set

theorem origin (h : Used later l l') (hrefl : ∀ a, later a a) (ha : l'[n]?.join = some a') :
    ∃ a, l[n]?.join = some a ∧ later a a' := by
  cases h with
  | same => exact ⟨a', ha, hrefl a'⟩
  | used i a a₁ hi hlater =>
    rw [List.getElem?_set] at ha
    split at ha
    · rename_i he
      subst he
      split at ha
      · cases ha
        exact ⟨a, hi, hlater⟩
      · cases ha
    · exact ⟨a', ha, hrefl a'⟩
  | gone i =>
    rw [List.getElem?_set] at ha
    split at ha
    · split at ha <;> cases ha
    · exact ⟨a', ha, hrefl a'⟩

theorem put {a : γ} {o : Option γ} (ha : l[n]?.join = some a)
    (hlater : ∀ a', o = some a' → later a a') : Used later l (l.set n o) := by
  cases o with
  | none => exact .gone n
  | some a' => exact .used n a a' ha (hlater a' rfl)

end Used

inductive Shelved {γ : Type} (later : γ → γ → Prop) (l : List (Option γ)) :
    List (Option γ) → Prop where
  | used {l' : List (Option γ)} (h : Used later l l') : Shelved later l l'
  | added (a : γ) : Shelved later l (l ++ [some a])

namespace Shelved

variable {γ : Type} {later : γ → γ → Prop} {l l' : List (Option γ)} {n : Nat} {a' : γ}

theorem length_le (h : Shelved later l l') : l.length ≤ l'.length := by
  cases h with
  | used h => exact Nat.le_of_eq h.length_eq.symm
  | added a => simp

theorem origin (h : Shelved later l l') (hrefl : ∀ a, later a a) (hn : n < l.length)
    (ha : l'[n]?.join = some a') : ∃ a, l[n]?.join = some a ∧ later a a' := by
  cases h with
  | used h => exact h.origin hrefl ha
  | added a =>
    rw [List.getElem?_append_left hn] at ha
    exact ⟨a', ha, hrefl a'⟩

end Shelved

/-- What is left of a result that is kept: the failure of its call may have been read. -/
def Deferred.Later (d d' : Deferred α ε) : Prop :=
  d' = d ∨ (∃ failure, d.state = .failed failure) ∧ d' = { d with state := .failed none }

theorem Deferred.Later.trans {d d' d'' : Deferred α ε} (h : d.Later d') (h' : d'.Later d'') :
    d.Later d'' := by
  rcases h with rfl | ⟨hd, rfl⟩
  · exact h'
  · rcases h' with rfl | ⟨-, rfl⟩
    · exact .inr ⟨hd, rfl⟩
    · exact .inr ⟨hd, rfl⟩

structure Stream.Later (c c' : Stream α ε) : Prop where
  port : c'.port = c.port
  codec : c'.codec = c.codec
  task : c'.task = c.task
  failure : c'.failure = c.failure ∨ c'.failure = none ∧ c'.finished = true
  finished : c.finished = true → c'.finished = true

theorem Stream.Later.refl (c : Stream α ε) : c.Later c := ⟨rfl, rfl, rfl, .inl rfl, id⟩

theorem Stream.Later.trans {c c' c'' : Stream α ε} (h : c.Later c') (h' : c'.Later c'') :
    c.Later c'' where
  port := h'.port.trans h.port
  codec := h'.codec.trans h.codec
  task := h'.task.trans h.task
  failure := by
    rcases h'.failure with he | hread
    · rw [he]
      exact h.failure.imp_right fun hread => ⟨hread.1, h'.finished hread.2⟩
    · exact .inr hread
  finished hfin := h'.finished (h.finished hfin)

theorem Stream.Later.holds {c c' : Stream α ε} (h : c.Later c') (hholds : c'.holds = true) :
    c.holds = true := by
  rw [Stream.holds, Bool.and_eq_true, Bool.not_eq_true', Option.isNone_iff_eq_none] at hholds ⊢
  obtain ⟨hgoes, hnone⟩ := hholds
  refine ⟨Bool.eq_false_iff.2 fun hfinished => ?_, ?_⟩
  · rw [h.finished hfinished] at hgoes
    cases hgoes
  · rcases h.failure with hsame | ⟨-, hfinished⟩
    · rw [← hsame, hnone]
    · rw [hfinished] at hgoes
      cases hgoes

section Later

variable {thread : Option String}

theorem Deferred.readBy_later
    {g : OneShot Value → Except Panic (Option (OneShot.Verdict Value) × OneShot Value)}
    {d d' : Deferred α ε} {x y : Exchange}
    (h : (Deferred.readBy thread g (d, x)).EndsIn (d', y)) : d.Later d' := by
  unfold Deferred.readBy at h
  dsimp only at h
  split at h
  · rename_i failure hd
    rcases h with ⟨r, h⟩ | ⟨p, h⟩ <;> cases h
    exact .inr ⟨⟨failure, hd⟩, rfl⟩
  · rename_i k hd
    cases hg : g (x.pending.slot k) with
    | error p =>
      rw [hg] at h
      rcases h with ⟨r, h⟩ | ⟨p, h⟩ <;> cases h
      exact .inl rfl
    | ok a =>
      obtain ⟨_ | v, slot⟩ := a <;> rw [hg] at h
      · rcases h with ⟨r, h⟩ | ⟨p, h⟩ <;> cases h
        exact .inl rfl
      · dsimp only at h
        cases hv : d.finish thread v (x.setSlot k slot) <;> rw [hv] at h <;>
          rcases h with ⟨r, h⟩ | ⟨p, h⟩ <;> cases h <;> exact .inl rfl

theorem Stream.accept_later {r : Inbox.Received} {c c' : Stream α ε} {x y : Exchange}
    (h : (Stream.accept thread r (c, x)).EndsIn (c', y)) : c.Later c' := by
  have hfinish : ∀ z, c.Later (c.finish z).1 := fun _ => ⟨rfl, rfl, rfl, .inl rfl, fun _ => rfl⟩
  cases r with
  | ended =>
    rcases h with ⟨p, h⟩ | ⟨p, h⟩ <;> cases h
    exact hfinish x
  | value v =>
    unfold Stream.accept at h
    dsimp only at h
    split at h
    · rcases h with ⟨p, h⟩ | ⟨p, h⟩ <;> cases h
      exact hfinish (x.note (.endOfStream c.port.name))
    · split at h <;> rcases h with ⟨p, h⟩ | ⟨p, h⟩ <;> cases h
      · exact .refl c
      · exact .refl c
      · exact hfinish x

theorem Stream.pullBy_later {g : Inbox → Except Panic (Option Inbox.Received × Inbox)}
    {c c' : Stream α ε} {x y : Exchange}
    (h : (Stream.pullBy thread g (c, x)).EndsIn (c', y)) : c.Later c' := by
  unfold Stream.pullBy at h
  dsimp only at h
  split at h
  · rcases h with ⟨p, h⟩ | ⟨p, h⟩ <;> cases h
    exact ⟨rfl, rfl, rfl, .inr ⟨rfl, rfl⟩, fun _ => rfl⟩
  · split at h
    · rcases h with ⟨p, h⟩ | ⟨p, h⟩ <;> cases h
      exact .refl c
    · split at h
      · rcases h with ⟨p, h⟩ | ⟨p, h⟩ <;> cases h
        exact .refl c
      · rcases h with ⟨p, h⟩ | ⟨p, h⟩ <;> cases h
        exact .refl c
      · exact Stream.accept_later h

theorem Stream.close_later (c : Stream α ε) (x : Exchange) : c.Later (c.close x).1 := by
  unfold Stream.close
  split
  · exact .refl c
  · exact ⟨rfl, rfl, rfl, .inl rfl, fun _ => rfl⟩

end Later

def Event.ofCall (call : Invocation Routine) : Event :=
  .call call.callable.body.label call.args

namespace Floor

/-- The call that a move makes, if it hands in a message that asks for one. -/
def made? (f : Floor α ε) : Move α ε → Option (Invocation Routine)
  | .beginCallback message =>
    if f.exchange.isGone then none else (f.exchange.callbacks.read message).toOption
  | _ => none

/-- What is seen in the course of a move: what a script shows of itself, or the callback that is
started on a call. -/
def shown (f : Floor α ε) (m : Move α ε) : List Event :=
  match m with
  | .see e => [e]
  | m => (f.made? m).toList.map Event.ofCall

end Floor

namespace Stage

variable {st : Stage}

theorem trace_whileUp {g : Exchange → Outcome Stage Reply}
    (hg : (g st.exchange).Leaves fun st' => st'.trace = st.trace) :
    (st.whileUp g).Leaves fun st' => st'.trace = st.trace := by
  unfold whileUp
  split
  · exact rfl
  · exact hg

theorem trace_withPort {p : Option PortId} {g : PortId → Outcome Stage Reply}
    (hg : ∀ q, (g q).Leaves fun st' => st'.trace = st.trace) :
    (st.withPort p g).Leaves fun st' => st'.trace = st.trace := by
  cases p with
  | none => exact rfl
  | some q => exact hg q

theorem trace_perform {a : Action} (ha : a.isElementary = true) :
    (perform 0 none a st).Leaves fun st' => st'.trace = st.trace := by
  unfold perform Stage.run
  cases a with
  | own | native | invoke | drain => cases ha
  | ownClosed | keep | panic => exact rfl
  | nativeClosed n | nativeInfo n => exact trace_withPort fun _ => rfl
  | notify =>
    refine trace_whileUp ?_
    unfold Stage.notify
    split <;> exact rfl
  | post | shutdown | closePort | isOpen | portName | register | unregister | takeReverse | reverse
    | callbackCount | counters => exact trace_whileUp rfl

end Stage

inductive Session.Becomes (s : Session α ε) (m : Move α ε) : List Event → Session α ε → Prop
  | staged (shown : List Event) (stage : Stage) (dispatcher : Bool) (tickets : List (Option Ticket))
      (h : stage.trace = s.stage.trace ++ shown) :
      Becomes s m shown { s with stage := stage, dispatcher := dispatcher, tickets := tickets }
  | deferred (n : Nat) (d : Deferred α ε) (o : Option (Deferred α ε)) (x : Exchange)
      (hm : m.place? = some ⟨.deferreds, n⟩) (hd : s.deferreds[n]?.join = some d)
      (hlater : ∀ d', o = some d' → d.Later d') : Becomes s m [] ((s.put x).setDeferred n o)
  | stream (n : Nat) (c : Stream α ε) (o : Option (Stream α ε)) (x : Exchange)
      (hm : m.place? = some ⟨.streams, n⟩) (hc : s.streams[n]?.join = some c)
      (hlater : ∀ c', o = some c' → c.Later c') : Becomes s m [] ((s.put x).setStream n o)
  | broadcast (n : Nat) (x : Exchange) (hm : m.place? = some ⟨.broadcasts, n⟩) :
      Becomes s m [] { s.put x with broadcasts := s.broadcasts.set n none }
  | opened (stage : Stage) (b : Exchange.Broadcast) (h : stage.trace = s.stage.trace)
      (hm : ∃ task h, m = .step (.openBroadcast task) h) :
      Becomes s m [] { s with stage := stage, broadcasts := s.broadcasts ++ [some b] }
  | handedDeferred (x : Exchange) (d : Deferred α ε) (hm : ∃ i ended, m = .finish i ended) :
      Becomes s m [] { s.put x with deferreds := s.deferreds ++ [some d] }
  | handedStream (x : Exchange) (c : Stream α ε) (hm : ∃ i ended, m = .finish i ended) :
      Becomes s m [] { s.put x with streams := s.streams ++ [some c] }

namespace Session

variable {s : Session α ε} {m : Move α ε} {thread : Option String} {n : Nat}

namespace Becomes

theorem quiet (stage : Stage) (dispatcher : Bool) (tickets : List (Option Ticket))
    (h : stage.trace = s.stage.trace := by rfl) :
    s.Becomes m [] { s with stage := stage, dispatcher := dispatcher, tickets := tickets } :=
  .staged [] stage dispatcher tickets (h.trans (List.append_nil _).symm)

theorem put (x : Exchange) : s.Becomes m [] (s.put x) := .quiet (s.stage.put x) _ _

theorem refl (s : Session α ε) (m : Move α ε) : s.Becomes m [] s := .quiet s.stage _ _

end Becomes

theorem becomes_withDispatcher {g : Exchange → Turn α ε} (hg : ∀ x, s.Becomes m [] (g x).2) :
    s.Becomes m [] (s.withDispatcher g).2 := by
  unfold withDispatcher
  split
  · exact hg _
  · exact .refl s m

theorem becomes_withHandle {η : Type} {handles : List (Option η)} {g : η → Turn α ε}
    (hg : ∀ h, handles[n]?.join = some h → s.Becomes m [] (g h).2) :
    s.Becomes m [] (s.withHandle handles n g).2 := by
  unfold withHandle
  split
  · rename_i h hh
    exact hg h hh
  · exact .refl s m

theorem becomes_readDeferred (hm : m.place? = some ⟨.deferreds, n⟩) (late : Answer α ε)
    (g : OneShot Value → Except Panic (Option (OneShot.Verdict Value) × OneShot Value)) :
    s.Becomes m [] (s.readDeferred n late (Deferred.readBy thread g)).2 := by
  refine becomes_withHandle fun d hd => ?_
  have hlater : ∀ t, (Deferred.readBy thread g (d, s.exchange)).EndsIn t →
      s.Becomes m [] ((s.put t.2).setDeferred n (some t.1)) := by
    intro t ht
    refine .deferred n d _ t.2 hm hd fun d' hd' => ?_
    cases hd'
    exact Deferred.readBy_later ht
  cases hread : Deferred.readBy thread g (d, s.exchange) with
  | returned r t => exact hlater t (.inl ⟨r, hread⟩)
  | unwound p t => exact hlater t (.inr ⟨p, hread⟩)
  | exhausted => exact .refl s m

theorem becomes_waitDeferred (hm : m.place? = some ⟨.deferreds, n⟩) :
    s.Becomes m [] (s.waitDeferred thread n).2 := by
  refine becomes_withHandle fun d hd => ?_
  split
  · cases d.wait thread s.exchange with
    | returned r x => exact .deferred n d none x hm hd (by simp)
    | unwound p x => exact .deferred n d none x hm hd (by simp)
    | exhausted => exact .refl s m
  · exact .refl s m

theorem becomes_pullStream (hm : m.place? = some ⟨.streams, n⟩)
    (answer : Stream.Pull α ε → Answer α ε)
    (g : Inbox → Except Panic (Option Inbox.Received × Inbox)) :
    s.Becomes m [] (s.pullStream n (Stream.pullBy thread g) answer).2 := by
  refine becomes_withHandle fun c hc => ?_
  have hlater : ∀ t, (Stream.pullBy thread g (c, s.exchange)).EndsIn t →
      s.Becomes m [] ((s.put t.2).setStream n (some t.1)) := by
    intro t ht
    refine .stream n c _ t.2 hm hc fun c' hc' => ?_
    cases hc'
    exact Stream.pullBy_later ht
  cases hpull : Stream.pullBy thread g (c, s.exchange) with
  | returned r t => exact hlater t (.inl ⟨r, hpull⟩)
  | unwound p t => exact hlater t (.inr ⟨p, hpull⟩)
  | exhausted => exact .refl s m

theorem becomes_receiveBy (late : Answer α ε)
    (g : Inbox → Except Panic (Option Inbox.Received × Inbox)) :
    s.Becomes m [] (s.receiveBy n late g).2 := by
  refine becomes_withHandle fun b hb => ?_
  split
  · exact .refl s m
  · exact .put _

theorem becomes_readTicket (r : OneShot.Read) : s.Becomes m [] (s.readTicket n r).2 := by
  unfold readTicket
  split
  · exact .refl s m
  · exact .quiet _ _ _

theorem becomes_withNotifier (g : Notifier → Bool × Notifier) :
    s.Becomes m [] (s.withNotifier g).2 := by
  unfold withNotifier
  dsimp only
  split
  · exact .refl s m
  · exact .put _

theorem becomes_step (s : Session α ε) (thread : Option String) (st : Step α ε)
    (h : st.isElementary = true) : s.Becomes (.step st h) [] (s.step 0 thread st).2 := by
  cases st with
  | act a =>
    have hperform : (s.stage.perform 0 none a).Leaves fun st => st.trace = s.stage.trace :=
      Stage.trace_perform h
    change s.Becomes _ [] (s.settle (s.stage.perform 0 none a) replied).2
    cases hp : s.stage.perform 0 none a <;> rw [hp] at hperform
    · exact .quiet _ _ _ hperform
    · exact .quiet _ _ _ hperform
    · exact .refl s _
  | callAsync | callStream | callSync | collect | pump | pumpOnce | threads => cases h
  | tryTake | waitTimeout | poll => exact becomes_readDeferred rfl _ _
  | wait n => exact becomes_waitDeferred rfl
  | dropDeferred n =>
    exact becomes_withHandle fun d hd => .deferred n d none _ rfl hd (by simp)
  | next | nextTimeout => exact becomes_pullStream rfl _ _
  | closeStream n =>
    refine becomes_withHandle fun c hc => .stream n c _ _ rfl hc fun c' hc' => ?_
    cases hc'
    exact c.close_later s.exchange
  | dropStream n => exact becomes_withHandle fun c hc => .stream n c none _ rfl hc (by simp)
  | ready | deferredText | streamInfo | broadcastInfo =>
    exact becomes_withHandle fun _ _ => .refl s _
  | tryReceive | closeBroadcast => exact becomes_withHandle fun _ _ => .put _
  | dropBroadcast n => exact becomes_withHandle fun _ _ => .broadcast n _ rfl
  | receive | receiveWithin => exact becomes_receiveBy _ _
  | readTicket n r => exact becomes_readTicket r
  | openSingle =>
    refine becomes_withDispatcher fun x => ?_
    cases x.openSingle.1 <;> exact .quiet _ _ _
  | openBroadcast task =>
    refine becomes_withDispatcher fun x => ?_
    cases (x.openBroadcast task).1 with
    | error e => exact .put _
    | ok b => exact .opened _ b rfl ⟨task, h, rfl⟩
  | waitForDelivery =>
    refine becomes_withDispatcher fun x => ?_
    cases x.waitForDelivery with
    | error e => exact .refl s _
    | ok r => exact .put _
  | reverseHandle | dispatcherText | dispatcherCounters | shutdownDispatcher | cloneDispatcher
    | dropDispatcher => exact becomes_withDispatcher fun _ => .quiet _ _ _
  | breakNotifier | saturateNotifier => exact becomes_withNotifier _

end Session

namespace Floor

variable {f : Floor α ε} {m : Move α ε}

theorem becomes_begin {β : Type} {r : Except Fault β × Exchange} {port : β → PortId}
    {running : β → Running α ε} : f.session.Becomes m [] (f.begin r port running).2.session := by
  unfold Floor.begin
  split
  · split <;> exact .put _
  · exact .refl _ m

theorem becomes_finish (f : Floor α ε) (thread : Option String) (i : Nat)
    (ended : Except Panic Buffer) :
    f.session.Becomes (.finish i ended) [] (f.finish thread i ended).2.session := by
  unfold Floor.finish
  split
  · exact .refl _ _
  · rename_i r _
    cases r with
    | async => exact .handedDeferred _ _ ⟨i, ended, rfl⟩
    | stream => exact .handedStream _ _ ⟨i, ended, rfl⟩
    | sync => exact .put _
    | callback =>
      cases ended with
      | ok b => exact .put _
      | error p => exact .refl _ _

/-- In a move one handle is used or handed out, or none, and there is seen what the move shows. -/
theorem becomes_apply (f : Floor α ε) (thread : Option String) (m : Move α ε) :
    f.session.Becomes m (f.shown m) (f.apply thread m).2.session := by
  cases m with
  | step st h =>
    by_cases hdrop : st = .dropDispatcher
    · subst hdrop
      change f.session.Becomes _ [] (if f.isBusy then _ else f.turn _ : Turn α ε).2.session
      split
      · exact .refl _ _
      · exact f.session.becomes_step thread .dropDispatcher h
    · have hstep : f.apply thread (.step st h) = f.turn (f.session.step 0 thread st) := by
        cases st <;> first | rfl | exact absurd rfl hdrop
      rw [hstep]
      exact f.session.becomes_step thread st h
  | see e => exact .staged [e] _ _ _ rfl
  | deliver | keep | announce => exact .quiet _ _ _
  | beginAsync | beginStream => exact becomes_begin
  | beginSync =>
    change f.session.Becomes _ [] (if f.session.dispatcher then _ else _ : Turn α ε).2.session
    split
    · exact .put _
    · exact .refl _ _
  | beginCallback message =>
    change f.session.Becomes _ ((if f.exchange.isGone then none
      else (f.exchange.callbacks.read message).toOption).toList.map Event.ofCall)
      (f.beginCallback message).2.session
    unfold Floor.beginCallback
    dsimp only
    rw [session_exchange]
    split
    · exact .refl _ _
    · cases f.exchange.callbacks.read message with
      | error e => exact .put _
      | ok call => exact .staged [.ofCall call] _ _ _ rfl
  | finish i ended => exact f.becomes_finish thread i ended

end Floor

structure Session.Uses (s s' : Session α ε) : Prop where
  deferreds : Used Deferred.Later s.deferreds s'.deferreds
  streams : Used Stream.Later s.streams s'.streams

namespace Session.Becomes

variable {s s' : Session α ε} {m : Move α ε} {shown : List Event} {n : Nat}

theorem uses (h : s.Becomes m shown s') (hm : ∀ i ended, m ≠ .finish i ended) : s.Uses s' := by
  cases h with
  | staged | broadcast | opened => exact ⟨.same, .same⟩
  | deferred n d o x _ hd hlater => exact ⟨.put hd hlater, .same⟩
  | stream n c o x _ hc hlater => exact ⟨.same, .put hc hlater⟩
  | handedDeferred x d hfinish | handedStream x c hfinish =>
    obtain ⟨i, ended, he⟩ := hfinish
    exact absurd he (hm i ended)

theorem deferreds (h : s.Becomes m shown s') : Shelved Deferred.Later s.deferreds s'.deferreds := by
  cases h with
  | staged | stream | broadcast | opened | handedStream => exact .used .same
  | deferred n d o x _ hd hlater => exact .used (.put hd hlater)
  | handedDeferred x d => exact .added d

theorem streams (h : s.Becomes m shown s') : Shelved Stream.Later s.streams s'.streams := by
  cases h with
  | staged | deferred | broadcast | opened | handedDeferred => exact .used .same
  | stream n c o x _ hc hlater => exact .used (.put hc hlater)
  | handedStream x c => exact .added c

theorem keepsStream {c : Stream α ε} (h : s.Becomes m shown s')
    (hm : m.place? ≠ some ⟨.streams, n⟩) (hc : s.streams[n]?.join = some c) :
    s'.streams[n]?.join = some c := by
  cases h with
  | staged | deferred | broadcast | opened | handedDeferred => exact hc
  | stream i c₁ o x hplace =>
    have hne : i ≠ n := by
      rintro rfl
      exact hm hplace
    change (s.streams.set i o)[n]?.join = some c
    rw [List.getElem?_set_ne hne]
    exact hc
  | handedStream x c₁ =>
    have hn : n < s.streams.length := by
      refine Nat.lt_of_not_le fun hle => ?_
      rw [List.getElem?_eq_none hle] at hc
      cases hc
    change (s.streams ++ [some c₁])[n]?.join = some c
    rw [List.getElem?_append_left hn]
    exact hc

theorem broadcasts (h : s.Becomes m shown s') (hm : ∀ task h, m ≠ .step (.openBroadcast task) h) :
    Used Eq s.broadcasts s'.broadcasts := by
  cases h with
  | staged | deferred | stream | handedDeferred | handedStream => exact .same
  | broadcast n => exact .gone n
  | opened stage b _ hopen =>
    obtain ⟨task, h, he⟩ := hopen
    exact absurd he (hm task h)

theorem trace (h : s.Becomes m shown s') : s'.stage.trace = s.stage.trace ++ shown := by
  cases h with
  | staged _ _ _ _ h => exact h
  | opened _ _ h => exact h.trans (List.append_nil _).symm
  | deferred | stream | broadcast | handedDeferred | handedStream => exact (List.append_nil _).symm

end Session.Becomes

namespace Floor

variable {m : Move α ε}

/-- Only code that is over adds a result or a stream. -/
theorem uses_apply (f : Floor α ε) (thread : Option String)
    (hm : ∀ i ended, m ≠ .finish i ended) : f.session.Uses (f.apply thread m).2.session :=
  (f.becomes_apply thread m).uses hm

structure Shelves (f f' : Floor α ε) : Prop where
  deferreds : Shelved Deferred.Later f.session.deferreds f'.session.deferreds
  streams : Shelved Stream.Later f.session.streams f'.session.streams

theorem shelves_apply (f : Floor α ε) (thread : Option String) (m : Move α ε) :
    f.Shelves (f.apply thread m).2 :=
  have h := f.becomes_apply thread m
  ⟨h.deferreds, h.streams⟩

end Floor

end CallExchange
