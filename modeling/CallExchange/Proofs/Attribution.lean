import CallExchange.Proofs.SyncCalls

set_option autoImplicit false

/-!
# To whom an abort is attributed

An abort comes out of a call at once, if it is a sync call, or later, through the handle that the
call gave. Whatever is done in between, it carries the text that was left by whoever aborted and the
name of the thread that observed it, which is the caller's for what happens while the call is
issued and the reader's for what was delivered. It carries the name of the task, but for the entry
of a stream call, which is reported under the name of its port.
-/

namespace CallExchange

variable {α ε : Type}

structure Call (α ε : Type) where
  kind : CallKind
  task : String
  codec : Codec α ε
  caller : Option String
  ended : Except Panic Buffer

namespace Call

def begins (call : Call α ε) : Move α ε :=
  match call.kind with
  | .normal => .beginAsync call.task call.codec
  | .sync => .beginSync call.task call.codec
  | .stream => .beginStream call.task call.codec

inductive Starts (call : Call α ε) : Running α ε → Prop where
  | normal (p : PortId) (k : Ticket) (hkind : call.kind = .normal) :
      Starts call (.async call.task call.codec p k)
  | sync (hkind : call.kind = .sync) : Starts call (.sync call.task call.codec)
  | stream (port : Exchange.Broadcast) (n : UInt64) (hkind : call.kind = .stream)
      (hname : port.name = PortNames.name call.task n) :
      Starts call (.stream call.task call.codec port)

/-- An abort that the maker of a call is told of. How the entry ended, what was delivered, who made
the call and who reads its result are all that it is made of. -/
inductive Observed (call : Call α ε) (arrived : Value → Prop) (reader : Option String) :
    Abort → Prop where
  | entry (p : Panic) (hkind : call.kind ≠ .stream) (hended : call.ended = .error p) :
      Observed call arrived reader (.observed call.caller call.task p.message)
  | entryOfStream (p : Panic) (n : UInt64) (hkind : call.kind = .stream)
      (hended : call.ended = .error p) :
      Observed call arrived reader
        (.observed call.caller (PortNames.name call.task n) p.message)
  | buffer (b : Buffer) (text : String) (hkind : call.kind = .sync) (hended : call.ended = .ok b)
      (hb : call.codec.decodeBuffer b = .ok (.abort text)) :
      Observed call arrived reader (.observed call.caller call.task text)
  | decoder (b : Buffer) (p : Panic) (hkind : call.kind = .sync) (hended : call.ended = .ok b)
      (hb : call.codec.decodeBuffer b = .error p) :
      Observed call arrived reader (.observed call.caller call.task p.message)
  | delivered (b : Buffer) (v : Value) (text : String) (hkind : call.kind ≠ .sync)
      (hended : call.ended = .ok b) (hv : arrived v)
      (htext : call.codec.decode v = .ok (.abort text)) :
      Observed call arrived reader (.observed reader call.task text)

theorem name_ne (task : String) (n : UInt64) : PortNames.name task n ≠ task := by
  intro h
  have hlength := congrArg String.length h
  simp only [PortNames.name, String.length_append] at hlength
  have hsign : "#".length = 1 := rfl
  omega

/-- An abort carries the name of its task, unless it is that of the entry of a stream call. -/
theorem Observed.task_iff {call : Call α ε} {arrived : Value → Prop} {reader : Option String}
    {a : Abort} (h : call.Observed arrived reader a) :
    a.task = call.task ↔ call.kind ≠ .stream ∨ ∃ b, call.ended = .ok b := by
  cases h with
  | entry p hkind hended => exact ⟨fun _ => .inl hkind, fun _ => rfl⟩
  | entryOfStream p n hkind hended =>
    refine ⟨fun h => absurd h (name_ne call.task n), ?_⟩
    rintro (hne | ⟨b, hb⟩)
    · exact absurd hkind hne
    · rw [hended] at hb
      cases hb
  | buffer b text hkind hended hb => exact ⟨fun _ => .inr ⟨b, hended⟩, fun _ => rfl⟩
  | decoder b p hkind hended hb => exact ⟨fun _ => .inr ⟨b, hended⟩, fun _ => rfl⟩
  | delivered b v text hkind hended hv htext => exact ⟨fun _ => .inr ⟨b, hended⟩, fun _ => rfl⟩

end Call

/-- Whether `v` is what a reader of the call finds: it was delivered to the port of the call and
comes next. -/
def Floor.Arrived (f : Floor α ε) (r : Running α ε) (v : Value) : Prop :=
  match r with
  | .async _ _ _ k => f.exchange.slot k = .ready v
  | .stream _ codec port =>
    codec.isEnd v = false ∧ ∃ vs, (f.exchange.inbox port.id).queue = v :: vs
  | _ => False

/-- Ways in which the abort of a call comes out: in its answer, or in the answer to a later use of
the handle that it gave. -/
inductive Surfaces (answer : Answer α ε) (later : Floor α ε) (reader : Option String) (a : Abort) :
    Prop where
  | atOnce (freed : UInt64) (text : String) (h : answer = .sync (.error (.fatal a)) freed text)
  | read (n : Nat) (d : Deferred α ε) (ready : Bool) (text : String) (m : Move α ε)
      (h : answer = .deferred n d ready text) (hm : m.place? = some ⟨.deferreds, n⟩)
      (hread : (later.apply reader m).1 = .result (.error (.fatal a)))
  | pulled (n : Nat) (c : Stream α ε) (text : String) (m : Move α ε)
      (h : answer = .stream n c text) (hm : m.place? = some ⟨.streams, n⟩)
      (hpull : (later.apply reader m).1 = .result (.error (.fatal a)))

section Reading

variable {thread : Option String} {a : Abort} {x : Exchange}

theorem Reader.resultOf_fatal {r : Reader} {d : Decoded α ε}
    (h : r.resultOf d = .error (.fatal a)) :
    ∃ text, d = .abort text ∧ a = .observed r.thread r.task text := by
  cases d with
  | abort text =>
    cases h
    exact ⟨text, rfl, rfl⟩
  | _ => cases h

def Deferred.FindsReady
    (g : OneShot Value → Except Panic (Option (OneShot.Verdict Value) × OneShot Value)) : Prop :=
  ∀ s v s', g s = .ok (some (.value v), s') → s = .ready v

theorem OneShot.ready_of_take {s s' : OneShot Value} {v : Value}
    (h : s.take = (some (.value v), s')) : s = .ready v := by
  cases s with
  | ready w =>
    cases h
    rfl
  | _ => cases h

theorem Deferred.findsReady_take : FindsReady fun s => .ok s.take :=
  fun _ _ _ h => OneShot.ready_of_take (Except.ok.inj h)

theorem Deferred.findsReady_poll (w : Waker) : FindsReady fun s => .ok (s.poll w) := by
  intro s v s' h
  cases s with
  | ready w =>
    cases h
    rfl
  | _ => cases h

theorem Deferred.findsReady_takeWithin (t : Timeout) : FindsReady fun s => s.takeWithin t := by
  intro s v s' h
  simp only [OneShot.takeWithin] at h
  split at h
  · cases h
  · exact OneShot.ready_of_take (Except.ok.inj h)

/-- The abort that a read of a result meets: the failure of the call itself, or what is in the
slot. -/
inductive Deferred.Meets (d : Deferred α ε) (x : Exchange) (reader : Option String) :
    Abort → Prop where
  | stored (a : Abort) (hd : d.state = .failed (some (.fatal a))) : Meets d x reader a
  | delivered (k : Ticket) (v : Value) (text : String) (hd : d.state = .waiting k)
      (hk : x.slot k = .ready v) (hv : d.codec.decode v = .ok (.abort text)) :
      Meets d x reader (.observed reader d.task text)

theorem Deferred.finish_fatal {d : Deferred α ε} {v : OneShot.Verdict Value} {y : Exchange}
    (h : d.finish thread v x = .returned (.error (.fatal a)) y) :
    ∃ w text, v = .value w ∧ d.codec.decode w = .ok (.abort text) ∧
      a = .observed thread d.task text := by
  cases v with
  | abandoned => cases h
  | value w =>
    simp only [Deferred.finish, Reader.read] at h
    cases hw : d.codec.decode w with
    | error p =>
      rw [hw] at h
      cases h
    | ok r =>
      rw [hw] at h
      obtain ⟨hresult, -⟩ := Outcome.returned.inj h
      rw [Reader.lift_fst] at hresult
      obtain ⟨text, rfl, ha⟩ := Reader.resultOf_fatal hresult
      exact ⟨w, text, rfl, hw, ha⟩

theorem Deferred.readBy_fatal
    {g : OneShot Value → Except Panic (Option (OneShot.Verdict Value) × OneShot Value)}
    (hg : FindsReady g) {d : Deferred α ε} {s : Deferred α ε × Exchange}
    (h : Deferred.readBy thread g (d, x) = .returned (some (.error (.fatal a))) s) :
    d.Meets x thread a := by
  simp only [Deferred.readBy] at h
  cases hd : d.state with
  | failed failure =>
    rw [hd] at h
    cases failure with
    | none => cases h
    | some failure =>
      cases h
      exact .stored a hd
  | waiting k =>
    rw [hd] at h
    dsimp only at h
    split at h
    · cases h
    · cases h
    · rename_i v s' hs
      cases hv : d.finish thread v (x.setSlot k s') with
      | returned r y =>
        rw [hv] at h
        cases h
        obtain ⟨w, text, rfl, hw, rfl⟩ := Deferred.finish_fatal hv
        exact .delivered k w text hd (hg _ w s' hs) hw
      | unwound p y =>
        rw [hv] at h
        cases h
      | exhausted =>
        rw [hv] at h
        cases h

inductive Stream.Meets (c : Stream α ε) (x : Exchange) (reader : Option String) : Abort → Prop where
  | stored (a : Abort) (hc : c.failure = some (.fatal a)) : Meets c x reader a
  | delivered (v : Value) (vs : List Value) (text : String) (hc : c.failure = none)
      (hopen : c.finished = false) (hq : (x.inbox c.port.id).queue = v :: vs)
      (hend : c.codec.isEnd v = false)
      (hv : c.codec.decode v = .ok (.abort text)) :
      Meets c x reader (.observed reader c.task text)

def Inbox.FindsOldest (g : Inbox → Except Panic (Option Inbox.Received × Inbox)) : Prop :=
  ∀ b v b', g b = .ok (some (.value v), b') → ∃ vs, b.queue = v :: vs

theorem Inbox.findsOldest_receive : FindsOldest fun b => .ok b.receive := by
  rintro ⟨_ | ⟨w, ws⟩, closed⟩ v b' h
  · cases closed <;> cases h
  · cases h
    exact ⟨ws, rfl⟩

theorem Inbox.findsOldest_receiveWithin (t : Timeout) : FindsOldest fun b => b.receiveWithin t := by
  intro b v b' h
  simp only [Inbox.receiveWithin] at h
  split at h
  · cases h
  · exact findsOldest_receive b v b' h

theorem Stream.accept_fatal {c : Stream α ε} {r : Inbox.Received} {s : Stream α ε × Exchange}
    (h : Stream.accept thread r (c, x) = .returned (.item (.error (.fatal a))) s) :
    ∃ v text, r = .value v ∧ c.codec.isEnd v = false ∧ c.codec.decode v = .ok (.abort text) ∧
      a = .observed thread c.task text := by
  cases r with
  | ended => cases h
  | value v =>
    simp only [Stream.accept] at h
    split at h
    · cases h
    · rename_i hend
      split at h
      · cases h
      · cases h
      · rename_i d _ hd
        obtain ⟨hresult, -⟩ := Outcome.returned.inj h
        have hlift := Pull.item.inj hresult
        rw [Reader.lift_fst] at hlift
        obtain ⟨text, rfl, ha⟩ := Reader.resultOf_fatal hlift
        exact ⟨v, text, rfl, Bool.eq_false_iff.2 hend, hd, ha⟩

theorem Stream.pullBy_fatal {g : Inbox → Except Panic (Option Inbox.Received × Inbox)}
    (hg : Inbox.FindsOldest g) {c : Stream α ε} {s : Stream α ε × Exchange}
    (h : Stream.pullBy thread g (c, x) = .returned (.item (.error (.fatal a))) s) :
    c.Meets x thread a := by
  simp only [Stream.pullBy] at h
  split at h
  · rename_i failure hfail
    cases h
    exact .stored a hfail
  · rename_i hnone
    split at h
    · cases h
    · rename_i hopen
      split at h
      · cases h
      · cases h
      · rename_i r b hr
        obtain ⟨v, text, rfl, hend, hv, rfl⟩ := Stream.accept_fatal h
        obtain ⟨vs, hq⟩ := hg _ v b hr
        exact .delivered v vs text hnone (Bool.eq_false_iff.2 hopen) hq hend hv

end Reading

namespace Floor

variable {f : Floor α ε} {thread : Option String} {a : Abort} {m : Move α ε} {n : Nat}

section Uses

theorem withHandle_fatal {η : Type} {handles : List (Option η)} {g : η → Session.Turn α ε}
    (h : (f.session.withHandle handles n g).1 = .result (.error (.fatal a))) :
    ∃ e, handles[n]?.join = some e ∧ (g e).1 = .result (.error (.fatal a)) := by
  unfold Session.withHandle at h
  split at h
  · rename_i e he
    exact ⟨e, he, h⟩
  · cases h

theorem readDeferred_fatal {late : Answer α ε}
    {g : OneShot Value → Except Panic (Option (OneShot.Verdict Value) × OneShot Value)}
    (hg : Deferred.FindsReady g) (hlate : late ≠ .result (.error (.fatal a)))
    (h : (f.session.readDeferred n late (Deferred.readBy thread g)).1 =
      .result (.error (.fatal a))) :
    ∃ d, f.session.deferreds[n]?.join = some d ∧ d.Meets f.exchange thread a := by
  obtain ⟨d, hd, h⟩ := withHandle_fatal h
  refine ⟨d, hd, ?_⟩
  split at h
  · rename_i r d' x hread
    cases r with
    | none => exact absurd h hlate
    | some r =>
      cases h
      exact Deferred.readBy_fatal hg hread
  · cases h
  · cases h

theorem waitDeferred_fatal
    (h : (f.session.waitDeferred thread n).1 = .result (.error (.fatal a))) :
    ∃ d, f.session.deferreds[n]?.join = some d ∧ d.Meets f.exchange thread a := by
  obtain ⟨d, hd, h⟩ := withHandle_fatal h
  refine ⟨d, hd, ?_⟩
  split at h
  · cases htake : Deferred.tryTake thread (d, f.session.exchange) with
    | returned r s =>
      rw [Deferred.wait, htake] at h
      cases r with
      | none => cases h
      | some r =>
        cases h
        exact Deferred.readBy_fatal Deferred.findsReady_take htake
    | unwound p s =>
      rw [Deferred.wait, htake] at h
      cases h
    | exhausted =>
      rw [Deferred.wait, htake] at h
      cases h
  · cases h

theorem pullStream_fatal {late : Answer α ε}
    {g : Inbox → Except Panic (Option Inbox.Received × Inbox)} (hg : Inbox.FindsOldest g)
    (hlate : late ≠ .result (.error (.fatal a)))
    (h : (f.session.pullStream n (Stream.pullBy thread g) (Session.answerPull late)).1 =
      .result (.error (.fatal a))) :
    ∃ c, f.session.streams[n]?.join = some c ∧ c.Meets f.exchange thread a := by
  obtain ⟨c, hc, h⟩ := withHandle_fatal h
  refine ⟨c, hc, ?_⟩
  split at h
  · rename_i pulled c' x hpull
    cases pulled with
    | item r =>
      cases h
      exact Stream.pullBy_fatal hg hpull
    | done => cases h
    | nothingYet => exact absurd h hlate
  · cases h
  · cases h

/-- In whichever way a result is used, an abort that comes out is one that it meets. -/
theorem deferred_meets (hm : m.place? = some ⟨.deferreds, n⟩)
    (h : (f.apply thread m).1 = .result (.error (.fatal a))) :
    ∃ d, f.session.deferreds[n]?.join = some d ∧ d.Meets f.exchange thread a := by
  unfold Move.place? at hm
  split at hm <;> cases hm
  · exact readDeferred_fatal Deferred.findsReady_take (by simp) h
  · exact readDeferred_fatal (Deferred.findsReady_takeWithin _) (by simp) h
  · exact readDeferred_fatal (Deferred.findsReady_poll _) (by simp) h
  · exact waitDeferred_fatal h
  · change (f.session.withHandle f.session.deferreds n _).1 = _ at h
    obtain ⟨d, -, hdrop⟩ := withHandle_fatal h
    cases hdrop

theorem stream_meets (hm : m.place? = some ⟨.streams, n⟩)
    (h : (f.apply thread m).1 = .result (.error (.fatal a))) :
    ∃ c, f.session.streams[n]?.join = some c ∧ c.Meets f.exchange thread a := by
  unfold Move.place? at hm
  split at hm <;> cases hm
  · exact pullStream_fatal Inbox.findsOldest_receive (by simp) h
  · exact pullStream_fatal (Inbox.findsOldest_receiveWithin _) (by simp) h
  · change (f.session.withHandle f.session.streams n _).1 = _ at h
    obtain ⟨c, -, hclose⟩ := withHandle_fatal h
    cases hclose
  · change (f.session.withHandle f.session.streams n _).1 = _ at h
    obtain ⟨c, -, hdrop⟩ := withHandle_fatal h
    cases hdrop

end Uses

section Call

variable {call : Call α ε} {r : Running α ε}

theorem begin_running {β : Type} {b : Except Fault β × Exchange} {port : β → PortId}
    {running : β → Running α ε}
    (h : (f.begin b port running).2.running[f.running.length]?.join = some r) :
    ∃ v, b.1 = .ok v ∧ r = running v := by
  unfold Floor.begin at h
  split at h
  · obtain ⟨_ | v, x⟩ := b
    · change f.running[f.running.length]?.join = _ at h
      rw [List.getElem?_eq_none (Nat.le_refl _)] at h
      cases h
    · refine ⟨v, rfl, ?_⟩
      change (f.running ++ [some (running v)])[f.running.length]?.join = _ at h
      rw [List.getElem?_concat_length] at h
      exact (Option.some.inj h).symm
  · rw [List.getElem?_eq_none (Nat.le_refl _)] at h
    cases h

theorem beginStream_name {x : Exchange} {task : String} {b : Exchange.Broadcast}
    (h : (x.beginStream task).1 = .ok b) : b.name = PortNames.name task (x.names.count task) := by
  cases ho : (x.openBroadcast task).1 with
  | error e =>
    rw [Exchange.beginStream_error task ho] at h
    cases h
  | ok b' =>
    obtain ⟨y, -, hbegin⟩ := Exchange.beginStream_ok task ho
    rw [hbegin] at h
    cases h
    have hopened := x.openBroadcast_opened task
    rw [ho] at hopened
    cases hopened with
    | opened name y hx hn hy => exact hn.symm

theorem starts_of_begins
    (h : (f.apply thread call.begins).2.running[f.running.length]?.join = some r) :
    call.Starts r := by
  obtain ⟨kind, task, codec, caller, ended⟩ := call
  cases kind with
  | normal =>
    obtain ⟨⟨p, k⟩, -, rfl⟩ := begin_running h
    exact .normal p k rfl
  | stream =>
    obtain ⟨port, hport, rfl⟩ := begin_running h
    exact .stream port _ rfl (beginStream_name hport)
  | sync =>
    change (if f.session.dispatcher then _ else _ : Turn α ε).2.running[_]?.join = _ at h
    split at h
    · change (f.running ++ [some (.sync task codec)])[f.running.length]?.join = _ at h
      rw [List.getElem?_concat_length] at h
      cases h
      exact .sync rfl
    · rw [List.getElem?_eq_none (Nat.le_refl _)] at h
      cases h

variable {i : Nat} {past : List (Option String × Move α ε)} {reader : Option String}

theorem meets_result {task : String} {codec : Codec α ε} {p : PortId} {k : Ticket}
    {ended : Except Panic Buffer} {caller : Option String} {d : Deferred α ε} {x : Exchange}
    (hlater : Deferred.Later ⟨stateAfter caller task k ended, codec, task, p⟩ d)
    (h : d.Meets x reader a) :
    (∃ panic, ended = .error panic ∧ a = .observed caller task panic.message) ∨
      ∃ b v text, ended = .ok b ∧ x.slot k = .ready v ∧ codec.decode v = .ok (.abort text) ∧
        a = .observed reader task text := by
  obtain rfl | ⟨-, rfl⟩ := hlater
  · cases ended with
    | ok b =>
      cases h with
      | stored a hstored => cases hstored
      | delivered j v text hwaiting hv htext =>
        cases hwaiting
        exact .inr ⟨b, v, text, rfl, hv, htext, rfl⟩
    | error panic =>
      cases h with
      | stored a hstored =>
        cases hstored
        exact .inl ⟨panic, rfl, rfl⟩
      | delivered j v text hwaiting hv htext => cases hwaiting
  · -- the failure has been read
    cases h with
    | stored a hstored => cases hstored
    | delivered j v text hwaiting hv htext => cases hwaiting

theorem meets_stream {task : String} {codec : Codec α ε} {port : Exchange.Broadcast}
    {ended : Except Panic Buffer} {caller : Option String} {c : Stream α ε} {x : Exchange}
    (hlater : Stream.Later ⟨port, codec, task, failureAfter caller port.name ended, false⟩ c)
    (h : c.Meets x reader a) :
    (∃ panic, ended = .error panic ∧ a = .observed caller port.name panic.message) ∨
      ∃ b v vs text, ended = .ok b ∧ codec.isEnd v = false ∧
        (x.inbox port.id).queue = v :: vs ∧ codec.decode v = .ok (.abort text) ∧
        a = .observed reader task text := by
  obtain ⟨port', codec', task', failure, finished⟩ := c
  obtain ⟨hport, hcodec, htask, hfailure, -⟩ := hlater
  dsimp only at hport hcodec htask hfailure
  subst hport hcodec htask
  cases ended with
  | ok b =>
    have hnone : failure = none := hfailure.elim id And.left
    cases h with
    | stored a hstored =>
      rw [show failure = _ from hstored] at hnone
      cases hnone
    | delivered v vs text _ _ hq hend hv => exact .inr ⟨b, v, vs, text, rfl, hend, hq, hv, rfl⟩
  | error panic =>
    cases h with
    | stored a hstored =>
      obtain he | ⟨he, -⟩ := hfailure <;> rw [show failure = _ from hstored] at he <;> cases he
      exact .inl ⟨panic, rfl, rfl⟩
    | delivered v vs text hread hopen hq hend hv =>
      -- once the failure has been read the stream is over
      obtain he | ⟨-, hfin⟩ := hfailure
      · rw [show failure = none from hread] at he
        cases he
      · rw [show finished = true from hfin] at hopen
        cases hopen

theorem observed_sync (hkind : call.kind = .sync)
    (hr : f.running[i]?.join = some (.sync call.task call.codec)) {later : Floor α ε}
    (hs : Surfaces (f.apply call.caller (.finish i call.ended)).1 later reader a)
    (arrived : Value → Prop) : call.Observed arrived reader a := by
  obtain ⟨freed, text, hanswer⟩ := finish_sync call.caller hr call.ended
  rw [hanswer] at hs
  cases hs with
  | atOnce freed' text' h =>
    obtain ⟨hresult, -, -⟩ := Answer.sync.inj h
    have hclass := Reader.classifies_verdict ⟨call.task, call.caller⟩
      (call.codec.found call.ended)
    obtain ⟨message, habort, rfl⟩ := (hclass.fatal a).1 hresult
    cases hended : call.ended with
    | error p =>
      rw [hended] at habort
      obtain rfl := (Reader.aborted_error p message).1 habort
      exact .entry p (by rw [hkind]; decide) hended
    | ok b =>
      rw [hended] at habort
      change Aborted (call.codec.decodeBuffer b) message at habort
      cases hb : call.codec.decodeBuffer b with
      | error p =>
        rw [hb] at habort
        obtain rfl := (Reader.aborted_error p message).1 habort
        exact .decoder b p hkind hended hb
      | ok d =>
        rw [hb] at habort
        obtain rfl := (Reader.aborted_ok d message).1 habort
        exact .buffer b message hkind hended hb
  | read n d ready text' m h => cases h
  | pulled n c text' m h => cases h

theorem observed_normal {p : PortId} {k : Ticket} (hkind : call.kind = .normal)
    (hr : f.running[i]?.join = some (.async call.task call.codec p k)) :
    let t := f.apply call.caller (.finish i call.ended)
    let later := runBy past t.2
    Surfaces t.1 later reader a →
      call.Observed (later.Arrived (.async call.task call.codec p k)) reader a := by
  intro t later hs
  obtain ⟨⟨ready, text, hanswer⟩, hshelf⟩ := finish_normal call.caller hr call.ended
  rw [show t.1 = _ from hanswer] at hs
  cases hs with
  | read n d ready' text' m h hm hread =>
    obtain ⟨rfl, -, -, -⟩ := Answer.deferred.inj h
    obtain ⟨d', hd', hmeets⟩ := deferred_meets hm hread
    -- the handle is the one that the call gave
    obtain ⟨d, hd, hlater⟩ := deferred_runBy (f := t.2) (n := f.session.deferreds.length)
      (by rw [hshelf, List.length_append]; exact Nat.lt_succ_self _) hd'
    rw [hshelf, List.getElem?_concat_length] at hd
    cases hd
    obtain ⟨panic, hended, rfl⟩ | ⟨b, v, message, hended, hv, htext, rfl⟩ :=
      meets_result hlater hmeets
    · exact .entry panic (by rw [hkind]; decide) hended
    · exact .delivered b v message (by rw [hkind]; decide) hended hv htext
  | atOnce freed text' h => cases h
  | pulled n c text' m h => cases h

theorem observed_stream {port : Exchange.Broadcast} {n : UInt64} (hkind : call.kind = .stream)
    (hname : port.name = PortNames.name call.task n)
    (hr : f.running[i]?.join = some (.stream call.task call.codec port)) :
    let t := f.apply call.caller (.finish i call.ended)
    let later := runBy past t.2
    Surfaces t.1 later reader a →
      call.Observed (later.Arrived (.stream call.task call.codec port)) reader a := by
  intro t later hs
  obtain ⟨⟨text, hanswer⟩, hshelf⟩ := finish_stream call.caller hr call.ended
  rw [show t.1 = _ from hanswer] at hs
  cases hs with
  | pulled j c text' m h hm hpull =>
    obtain ⟨rfl, -, -⟩ := Answer.stream.inj h
    obtain ⟨c', hc', hmeets⟩ := stream_meets hm hpull
    obtain ⟨c, hc, hlater⟩ := stream_runBy (f := t.2) (n := f.session.streams.length)
      (by rw [hshelf, List.length_append]; exact Nat.lt_succ_self _) hc'
    rw [hshelf, List.getElem?_concat_length] at hc
    cases hc
    obtain ⟨panic, hended, rfl⟩ | ⟨b, v, vs, message, hended, hend, hq, hv, rfl⟩ :=
      meets_stream hlater hmeets
    · rw [hname]
      exact .entryOfStream panic n hkind hended
    · exact .delivered b v message (by rw [hkind]; decide) hended ⟨hend, vs, hq⟩ hv
  | atOnce freed text' h => cases h
  | read n d ready' text' m h => cases h

/-- A call of any kind, issued on any floor. Whatever is done by whichever threads while its entry
runs and afterwards, an abort that comes out of it is made of nothing but the name of its task, the
text that was left and the name of the thread that observed it. Only the name is not that of the
task when the entry of a stream call aborts. -/
theorem runBy_attributes (f : Floor α ε) (call : Call α ε)
    (hbegun : (f.apply call.caller call.begins).2.running[f.running.length]?.join = some r)
    (during : List (Option String × Move α ε))
    (hentry : ∀ e ∈ during, ∀ ended, e.2 ≠ .finish f.running.length ended)
    (past : List (Option String × Move α ε)) (reader : Option String) :
    let g := runBy ((call.caller, call.begins) :: during) f
    let t := g.apply call.caller (.finish f.running.length call.ended)
    let later := runBy past t.2
    ∀ a, Surfaces t.1 later reader a → call.Observed (later.Arrived r) reader a ∧
      (a.task = call.task ↔ call.kind ≠ .stream ∨ ∃ b, call.ended = .ok b) := by
  intro g t later a hs
  have hruns : g.running[f.running.length]?.join = some r :=
    running_runBy (f := (f.apply call.caller call.begins).2) hbegun hentry
  have hobserved : call.Observed (later.Arrived r) reader a := by
    cases starts_of_begins hbegun with
    | normal p k hkind => exact observed_normal hkind hruns hs
    | sync hkind => exact observed_sync hkind hruns hs _
    | stream port n hkind hname => exact observed_stream hkind hname hruns hs
  exact ⟨hobserved, hobserved.task_iff⟩

/-- An abort that is delivered while the entry runs and read by a thread without a name. -/
theorem runBy_attributes_delivered : ∃ x, Exchange.create .standard = .ok x ∧
    let codec : Codec Int64 String := TaggedCodec.toCodec ⟨Value.int?, Value.text?, none⟩
    let call : Call Int64 String := ⟨.normal, "d", codec, some "main", .ok ⟨[]⟩⟩
    let during : List (Option String × Move Int64 String) := [(none, .deliver ⟨1⟩ (.abort "boom"))]
    let t := (runBy ((call.caller, call.begins) :: during) (start x)).apply call.caller
      (.finish 0 call.ended)
    let a : Abort := ⟨"d", "boom", "<unnamed>"⟩
    ((start x).apply call.caller call.begins).2.running[0]?.join =
        some (.async "d" codec ⟨1⟩ 0) ∧
      (∀ e ∈ during, ∀ ended, e.2 ≠ .finish 0 ended) ∧
      Surfaces t.1 t.2 none a ∧ call.Observed (t.2.Arrived (.async "d" codec ⟨1⟩ 0)) none a ∧
        a.task = "d" := by
  obtain ⟨x, hx⟩ : ∃ x, Exchange.create .standard = .ok x := ⟨_, rfl⟩
  refine ⟨x, hx, ?_⟩
  intro codec call during t a
  have hbegun : ((start x).apply call.caller call.begins).2.running[0]?.join =
      some (.async "d" codec ⟨1⟩ 0) := by
    cases hx
    rfl
  have hentry : ∀ e ∈ during, ∀ ended, e.2 ≠ .finish 0 ended := by
    simp [during]
  have hs : Surfaces t.1 t.2 none a := by
    cases hx
    exact .read 0 _ _ _ (.step (.tryTake 0) rfl) rfl rfl rfl
  obtain ⟨hobserved, htask⟩ := runBy_attributes (start x) call hbegun during hentry [] none a hs
  exact ⟨hbegun, hentry, hs, hobserved, htask.2 (.inl (by decide))⟩

/-- The entry of a stream call aborts, and what is pulled names the port and not the task. -/
theorem stream_abort_misnamed : ∃ x, Exchange.create .standard = .ok x ∧
    let codec : Codec Int64 String := TaggedCodec.toCodec ⟨Value.int?, Value.text?, none⟩
    let call : Call Int64 String := ⟨.stream, "d", codec, some "main", .error (.text "boom")⟩
    let t := ((start x).apply call.caller call.begins).2.apply call.caller (.finish 0 call.ended)
    let a : Abort := ⟨"d#0", "boom", "main"⟩
    Surfaces t.1 t.2 (some "main") a ∧ a.task ≠ call.task := by
  obtain ⟨x, hx⟩ : ∃ x, Exchange.create .standard = .ok x := ⟨_, rfl⟩
  refine ⟨x, hx, ?_⟩
  intro codec call t a
  refine ⟨?_, by decide⟩
  have hname : PortNames.name "d" 0 = "d#0" := by decide
  have ha : a = ⟨PortNames.name "d" 0, "boom", "main"⟩ := by rw [hname]
  rw [ha]
  cases hx
  exact .pulled 0 _ _ (.step (.next 0) rfl) rfl rfl rfl

end Call

end Floor

end CallExchange
