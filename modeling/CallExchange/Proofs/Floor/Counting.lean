import CallExchange.Proofs.Floor.Signals
import CallExchange.Proofs.Routing

set_option autoImplicit false

/-!
# What moves count

Every move adds at most one event to the counters of the exchange, and which one can be told from
the move and its answer. Opening, closing and shutting down are not counted, and neither is what is
read through a handle. A returned buffer is decoded and freed in the move that ends its call, and in
no other.
-/

namespace CallExchange

variable {α ε : Type}

namespace Counters

def after (c : Counters) : Option Event → Counters
  | none => c
  | some e => c.record e

def count (c : Counters) : Event → UInt64
  | .asyncCall => c.asyncCalls
  | .syncCall => c.syncCalls
  | .streamCall => c.streamCalls
  | .completed => c.completed
  | .queued => c.queued
  | .dropped => c.dropped
  | .callbackInvoked => c.callbacksInvoked
  | .callbackFailed => c.callbacksFailed
  | .bufferFreed => c.buffersFreed

theorem count_record_self (c : Counters) (e : Event) : (c.record e).count e = c.count e + 1 := by
  cases e <;> rfl

theorem count_record_of_ne (c : Counters) {e k : Event} (h : e ≠ k) :
    (c.record e).count k = c.count k := by
  cases e <;> cases k <;> first | rfl | exact absurd rfl h

theorem count_after (c : Counters) (o : Option Event) (k : Event) :
    (c.after o).count k = c.count k + UInt64.ofNat (o.toList.count k) := by
  cases o with
  | none => exact (UInt64.add_zero _).symm
  | some e =>
    by_cases hk : e = k
    · rw [hk, Option.toList_some, List.count_singleton_self]
      exact c.count_record_self k
    · rw [Option.toList_some, List.count_singleton, if_neg (by simpa using hk)]
      exact (c.count_record_of_ne hk).trans (UInt64.add_zero _).symm

end Counters

def Buffer.uses (b : Buffer) : List Buffer.Use := [.decoded b, .freed b]

namespace Exchange

/-- What an exchange keeps account of: what it has done, and what was done to returned buffers. -/
structure Books where
  counters : Counters
  bufferUses : List Buffer.Use

def books (x : Exchange) : Books := ⟨x.counters, x.bufferUses⟩

def Books.after (b : Books) (e : Option Counters.Event) : Option Buffer → Books
  | none => { b with counters := b.counters.after e }
  | some r => ⟨b.counters.after e, b.bufferUses ++ r.uses⟩

theorem Books.counters_after (b : Books) (e : Option Counters.Event) (r : Option Buffer) :
    (b.after e r).counters = b.counters.after e := by
  cases r <;> rfl

theorem Books.bufferUses_after (b : Books) (e : Option Counters.Event) (r : Option Buffer) :
    (b.after e r).bufferUses = b.bufferUses ++ r.elim [] Buffer.uses := by
  cases r with
  | none => exact (List.append_nil _).symm
  | some r => rfl

theorem bufferUses_ring (x : Exchange) : x.ring.bufferUses = x.bufferUses := by
  unfold ring
  split <;> rfl

theorem books_ring (x : Exchange) : x.ring.books = x.books := by
  rw [books, counters_ring, bufferUses_ring]
  rfl

theorem Posted.books_eq {x y : Exchange} {p : PortId} {v : Value} {d : Delivery}
    (hp : Posted x p v d y) :
    y.books = x.books.after (some (Delivery.event d)) none := by
  have huses : y.bufferUses = x.bufferUses := by
    cases hp with
    | completed w r hx hr => exact bufferUses_ring _
    | queued hx ht hn hb => exact bufferUses_ring _
    | dropped why hd =>
      unfold drop
      dsimp only
      split <;> rfl
  rw [books, hp.counters_eq, huses]
  rfl

theorem books_openSingle (x : Exchange) : x.openSingle.2.books = x.books := by
  unfold openSingle
  split
  · rfl
  · dsimp only
    split <;> rfl

theorem books_openBroadcast (x : Exchange) (task : String) :
    (x.openBroadcast task).2.books = x.books := by
  unfold openBroadcast
  split <;> rfl

theorem books_closeBroadcast (x : Exchange) (p : PortId) :
    (x.closeBroadcast p).2.books = x.books := by
  unfold closeBroadcast
  split <;> rfl

theorem books_cancelPending (x : Exchange) (p : PortId) :
    (x.cancelPending p).2.books = x.books := by
  unfold cancelPending
  split <;> rfl

theorem books_closePort (x : Exchange) (p : PortId) :
    (x.closePort p).2.books = x.books := by
  by_cases hp : p = reversePort
  · rw [hp]
    rfl
  · rw [x.closePort_snd hp, books_cancelPending, books_closeBroadcast]

theorem Broadcast.books_close (b : Broadcast) (x : Exchange) :
    (b.close x).2.books = x.books := by
  unfold Broadcast.close
  dsimp only
  split
  · split <;> rfl
  · have hport := (x.setInbox b.id (x.inbox b.id).close.2).books_closePort b.id
    split <;> exact hport

theorem books_closeInboxes (x : Exchange) (ps : List PortId) :
    (x.closeInboxes ps).books = x.books := by
  induction ps generalizing x with
  | nil => rfl
  | cons p ps ih => exact ih (x.closeInbox p)

theorem books_shutdown (x : Exchange) : x.shutdown.books = x.books := by
  unfold shutdown
  split
  · rfl
  · refine (books_ring _).trans ?_
    exact books_closeInboxes _ _

theorem books_release (x : Exchange) : x.release.books = x.books := by
  unfold release
  split
  · rfl
  · exact x.books_shutdown
  · rfl

end Exchange

theorem Exchange.frame_books : Exchange.Frame fun x y => y.books = x.books where
  refl _ := rfl
  trans h h' := h'.trans h
  note _ _ := rfl
  setInbox _ _ _ := rfl
  closePort x p := x.books_closePort p
  close b x := b.books_close x
  release := Exchange.books_release

theorem Exchange.books_free (x : Exchange) (b : Buffer) :
    ((x.use (.decoded b)).free b).books = x.books.after (some .bufferFreed) (some b) :=
  congrArg (Books.mk _) (List.append_assoc ..)

theorem Reader.books_ofEntry (r : Reader) (codec : Codec α ε) (ended : Except Panic Buffer)
    (x : Exchange) : (r.ofEntry codec ended x).2.books =
      match ended with
      | .ok b => x.books.after (some .bufferFreed) (some b)
      | .error _ => x.books := by
  cases ended with
  | error p => rfl
  | ok b =>
    simp only [Reader.ofEntry, Reader.readBuffer]
    cases codec.decodeBuffer b with
    | error p => exact x.books_free b
    | ok d => exact (Exchange.frame_books.lift r d _).trans (x.books_free b)

namespace Move

/-- What a move that was answered like this adds to the counters. A post that comes after the
exchange is gone is answered as dropped but is not counted any more. -/
def recorded? (gone : Bool) : Move α ε × Answer α ε → Option Counters.Event
  | (.beginAsync _ _, .reply (.port _ _)) => some .asyncCall
  | (.beginSync _ _, .reply .nothing) => some .syncCall
  | (.beginStream _ _, .reply (.port _ _)) => some .streamCall
  | (.beginCallback _, .reply (.fault _)) => some .callbackFailed
  | (.finish _ _, .reply .done) => some .callbackInvoked
  | (.finish _ (.ok _), .sync _ _ _) => some .bufferFreed
  | (m, .reply (.delivery d)) =>
    if m.post?.isSome && !gone then some (Exchange.Delivery.event d) else none
  | _ => none

inductive Records : Move α ε × Answer α ε → Counters.Event → Prop where
  | asyncCall (task : String) (codec : Codec α ε) (p : PortId) (text : String) :
      Records (.beginAsync task codec, .reply (.port p text)) .asyncCall
  | syncCall (task : String) (codec : Codec α ε) :
      Records (.beginSync task codec, .reply .nothing) .syncCall
  | streamCall (task : String) (codec : Codec α ε) (p : PortId) (text : String) :
      Records (.beginStream task codec, .reply (.port p text)) .streamCall
  | callbackFailed (message : Value) (e : Fault) :
      Records (.beginCallback message, .reply (.fault e)) .callbackFailed
  | callbackInvoked (i : Nat) (ended : Except Panic Buffer) :
      Records (.finish i ended, .reply .done) .callbackInvoked
  | bufferFreed (i : Nat) (b : Buffer) (result : CallResult α ε) (freed : UInt64)
      (text : String) : Records (.finish i (.ok b), .sync result freed text) .bufferFreed
  | completed (m : Move α ε) : Records (m, .reply (.delivery .completed)) .completed
  | queued (m : Move α ε) : Records (m, .reply (.delivery .queued)) .queued
  | dropped (m : Move α ε) : Records (m, .reply (.delivery .dropped)) .dropped

theorem records_of_recorded? {gone : Bool} {h : Move α ε × Answer α ε} {e : Counters.Event}
    (he : recorded? gone h = some e) : Records h e := by
  unfold recorded? at he
  split at he
  case h_7 d =>
    -- What a delivery counts is its own outcome.
    split at he
    · cases he
      cases d <;> constructor
    · cases he
  case h_8 => cases he
  all_goals
    cases he
    constructor

def buffer? : Move α ε × Answer α ε → Option Buffer
  | (.finish _ (.ok b), .sync _ _ _) => some b
  | _ => none

theorem buffer?_reply (m : Move α ε) (r : Reply) : buffer? (m, .reply r) = none := by
  unfold buffer?
  split
  · rename_i heq
    cases heq
  · rfl

/-- A step that posts nothing counts nothing. -/
theorem recorded?_step {gone : Bool} {st : Step α ε} {h : st.isElementary = true}
    (hpost : (Move.step st h).post? = none) (a : Answer α ε) :
    recorded? gone (.step st h, a) = none := by
  unfold recorded?
  split
  case h_7 heq =>
    cases heq
    rw [hpost]
    rfl
  case h_8 => rfl
  all_goals
    rename_i heq
    cases heq

end Move

namespace Floor

def Counts (f : Floor α ε) (m : Move α ε) (t : Turn α ε) : Prop :=
  t.2.exchange.books =
    f.exchange.books.after (Move.recorded? f.exchange.isGone (m, t.1)) (Move.buffer? (m, t.1))

variable {f : Floor α ε} {m : Move α ε} {a : Answer α ε} {t : Turn α ε} {n : Nat}
  {thread : Option String}

namespace Counts

theorem step {st : Step α ε} {h : st.isElementary = true} (hpost : (Move.step st h).post? = none)
    (ht : t.2.exchange.books = f.exchange.books) : f.Counts (.step st h) t := by
  rw [Counts, Move.recorded?_step hpost]
  exact ht

end Counts

theorem books_settle {β : Type} {o : Outcome Stage β} {g : β → Session α ε → Session.Turn α ε}
    (hg : ∀ b s, (g b s).2 = s)
    (ho : o.Leaves fun st => st.exchange.books = f.exchange.books) :
    (f.turn (f.session.settle o g)).2.exchange.books = f.exchange.books := by
  cases o with
  | returned b st =>
    rw [Session.settle, turn, hg]
    exact ho
  | unwound p st => exact ho
  | exhausted => rfl

theorem books_whileUp {g : Exchange → Outcome Stage Reply}
    (hg : (g f.exchange).Leaves fun st => st.exchange.books = f.exchange.books) :
    (f.turn (f.session.settle (f.session.stage.whileUp g) Session.replied)).2.exchange.books =
      f.exchange.books := by
  refine books_settle (fun _ _ => rfl) ?_
  unfold Stage.whileUp
  split
  · exact rfl
  · exact hg

theorem counts_post (p : PortId) (v : Value) (hm : m.post?.isSome = true)
    (hlive : f.exchange.isGone = false)
    (hr : ∀ d, Move.recorded? false (m, (.reply (.delivery d) : Answer α ε)) =
      if m.post?.isSome && !false then some (Exchange.Delivery.event d) else none) :
    f.Counts m (.reply (.delivery (f.exchange.post p v).1), f.put (f.exchange.post p v).2) := by
  rw [Counts, hlive, hr, hm, Move.buffer?_reply]
  exact (f.exchange.post_posted p v).books_eq

theorem counts_whileUp_post (p : PortId) (v : Value) (hm : m.post?.isSome = true)
    (hgone : ∀ gone, Move.recorded? gone (m, (.reply .exchangeGone : Answer α ε)) = none)
    (hr : ∀ d, Move.recorded? false (m, (.reply (.delivery d) : Answer α ε)) =
      if m.post?.isSome && !false then some (Exchange.Delivery.event d) else none) :
    f.Counts m (f.turn (f.session.settle
      (f.session.stage.whileUp fun x => f.session.stage.on (x.post p v) .delivery)
      Session.replied)) := by
  rw [Stage.whileUp]
  split
  · change f.exchange.books = f.exchange.books.after (Move.recorded? _ (m, .reply .exchangeGone))
      (Move.buffer? (m, .reply .exchangeGone))
    rw [hgone, Move.buffer?_reply]
    rfl
  · rename_i hup
    exact counts_post p v hm (Bool.eq_false_iff.2 hup) hr

theorem counts_act (a : Action) (h : (Step.act a : Step α ε).isElementary = true) :
    f.Counts (.step (.act a) h) (f.apply thread (.step (.act a) h)) := by
  change f.Counts _ (f.turn (f.session.settle (f.session.stage.perform 0 none a) Session.replied))
  unfold Stage.perform Stage.run
  cases a with
  | own | native | invoke | drain => cases h
  | post p v => exact counts_whileUp_post p v rfl (fun _ => rfl) fun _ => rfl
  | reverse v => exact counts_whileUp_post _ v rfl (fun _ => rfl) fun _ => rfl
  | ownClosed | keep | panic => exact .step rfl rfl
  | nativeClosed k | nativeInfo k =>
    refine .step rfl ?_
    change (f.turn (f.session.settle
      (Stage.withPort _ f.session.stage.kept[k]? _) _)).2.exchange.books = _
    cases f.session.stage.kept[k]? <;> rfl
  | shutdown => exact .step rfl (books_whileUp f.exchange.books_shutdown)
  | closePort p => exact .step rfl (books_whileUp (f.exchange.books_closePort p))
  | notify =>
    refine .step rfl (books_whileUp ?_)
    unfold Stage.notify
    split <;> exact rfl
  | register | unregister | isOpen | portName | takeReverse | callbackCount | counters =>
    exact .step rfl (books_whileUp rfl)

theorem counts_place {st : Step α ε} {h : st.isElementary = true} {q : Place}
    (hm : (Move.step st h).place? = some q) (hq : q.shelf ≠ .running)
    (hpost : (Move.step st h).post? = none) :
    f.Counts (.step st h) (f.apply thread (.step st h)) :=
  .step hpost (Exchange.frame_books.apply_place hm hq fun _ _ _ _ => rfl)

theorem books_withNotifier (g : Notifier → Bool × Notifier) :
    (f.turn (f.session.withNotifier g)).2.exchange.books = f.exchange.books := by
  unfold Session.withNotifier
  dsimp only
  split <;> rfl

theorem counts_step (st : Step α ε) (h : st.isElementary = true) :
    f.Counts (.step st h) (f.apply thread (.step st h)) := by
  cases st with
  | act a => exact counts_act a h
  | callAsync | callStream | callSync | collect | pump | pumpOnce | threads => cases h
  | ready | deferredText | streamInfo | broadcastInfo =>
    exact .step rfl (Exchange.frame_books.withHandle fun _ _ => rfl)
  | tryTake | waitTimeout | poll | wait | dropDeferred | next | nextTimeout | closeStream | dropStream
  | readTicket | receive | tryReceive | receiveWithin | closeBroadcast | dropBroadcast
  | dropDispatcher => exact counts_place rfl nofun rfl
  | openSingle =>
    refine .step rfl (Exchange.frame_books.withDispatcher ?_)
    have hopen := f.exchange.books_openSingle
    cases f.exchange.openSingle.1 <;> exact hopen
  | openBroadcast task =>
    refine .step rfl (Exchange.frame_books.withDispatcher ?_)
    have hopen := f.exchange.books_openBroadcast task
    cases (f.exchange.openBroadcast task).1 <;> exact hopen
  | waitForDelivery t =>
    refine .step rfl (Exchange.frame_books.withDispatcher ?_)
    unfold Exchange.waitForDelivery
    cases f.exchange.notifier.wait <;> rfl
  | reverseHandle | dispatcherText | dispatcherCounters =>
    exact .step rfl (Exchange.frame_books.withDispatcher rfl)
  | cloneDispatcher =>
    exact .step rfl (Exchange.frame_books.withDispatcher (Exchange.books_release f.exchange.hold))
  | shutdownDispatcher =>
    exact .step rfl (Exchange.frame_books.withDispatcher (Exchange.books_shutdown _))
  | breakNotifier | saturateNotifier => exact .step rfl (books_withNotifier _)

theorem counts_beginAsync (task : String) (codec : Codec α ε) :
    f.Counts (.beginAsync task codec) (f.apply thread (.beginAsync task codec)) := by
  have hopen := f.exchange.books_openSingle
  change f.Counts _ (f.begin (f.exchange.beginAsync task) _ _)
  unfold Floor.begin Exchange.beginAsync
  split
  · cases hs : f.exchange.openSingle with
    | mk r x =>
      rw [hs] at hopen
      cases r with
      | error e => exact hopen
      | ok b => exact congrArg (Exchange.Books.after · (some .asyncCall) none) hopen
  · rfl

theorem counts_beginStream (task : String) (codec : Codec α ε) :
    f.Counts (.beginStream task codec) (f.apply thread (.beginStream task codec)) := by
  have hopen := f.exchange.books_openBroadcast task
  change f.Counts _ (f.begin (f.exchange.beginStream task) _ _)
  unfold Floor.begin Exchange.beginStream
  split
  · cases hs : f.exchange.openBroadcast task with
    | mk r x =>
      rw [hs] at hopen
      cases r with
      | error e => exact hopen
      | ok b => exact congrArg (Exchange.Books.after · (some .streamCall) none) hopen
  · rfl

theorem counts_beginCallback (message : Value) :
    f.Counts (.beginCallback message) (f.beginCallback message) := by
  unfold Floor.beginCallback
  dsimp only
  split
  · rfl
  · split <;> rfl

theorem counts_finish (i : Nat) (ended : Except Panic Buffer) :
    f.Counts (.finish i ended) (f.finish thread i ended) := by
  unfold Floor.finish
  split
  · cases ended <;> rfl
  · rename_i r _
    cases r with
    | async task codec p k =>
      cases ended with
      | ok b => rfl
      | error e => exact f.exchange.books_closePort p
    | stream task codec port =>
      cases ended with
      | ok b => rfl
      | error e =>
        exact Exchange.frame_books.failStream ⟨port, codec, task, none, false⟩
          (.fatal (.observed thread port.name e.message)) (f.exchange.note _)
    | sync task codec =>
      have hread := Reader.books_ofEntry ⟨task, thread⟩ codec ended f.exchange
      cases ended <;> exact hread
    | callback => cases ended <;> rfl

theorem counts_apply (f : Floor α ε) (thread : Option String) (m : Move α ε) :
    f.Counts m (f.apply thread m) := by
  cases m with
  | step st h => exact counts_step st h
  | deliver p v =>
    change f.Counts _ (f.turn (f.session.settle (f.session.stage.on (f.exchange.deliver p v) _) _))
    unfold Exchange.deliver
    split
    · rename_i hgone
      rw [Counts, hgone]
      rfl
    · rename_i hup
      exact counts_post p v rfl (Bool.eq_false_iff.2 hup) fun _ => rfl
  | keep | see | announce => rfl
  | beginAsync task codec => exact counts_beginAsync task codec
  | beginStream task codec => exact counts_beginStream task codec
  | beginSync task codec =>
    change f.Counts _ (if f.session.dispatcher then _ else _)
    split <;> rfl
  | beginCallback message => exact counts_beginCallback message
  | finish i ended => exact counts_finish i ended

theorem counters_apply (f : Floor α ε) (thread : Option String) (m : Move α ε) :
    (f.apply thread m).2.exchange.counters =
      f.exchange.counters.after (Move.recorded? f.exchange.isGone (m, (f.apply thread m).1)) := by
  have hbooks := congrArg Exchange.Books.counters (f.counts_apply thread m)
  rw [Exchange.Books.counters_after] at hbooks
  exact hbooks

theorem bufferUses_apply (f : Floor α ε) (thread : Option String) (m : Move α ε) :
    (f.apply thread m).2.exchange.bufferUses =
      f.exchange.bufferUses ++ (Move.buffer? (m, (f.apply thread m).1)).elim [] Buffer.uses := by
  have hbooks := congrArg Exchange.Books.bufferUses (f.counts_apply thread m)
  rw [Exchange.Books.bufferUses_after] at hbooks
  exact hbooks

def recorded (thread : Option String) : List (Move α ε) → Floor α ε → List Counters.Event
  | [], _ => []
  | m :: ms, f =>
    (Move.recorded? f.exchange.isGone (m, (f.apply thread m).1)).toList ++
      recorded thread ms (f.apply thread m).2

theorem count_run (thread : Option String) (ms : List (Move α ε)) (f : Floor α ε)
    (k : Counters.Event) : (run thread ms f).exchange.counters.count k =
      f.exchange.counters.count k + UInt64.ofNat ((recorded thread ms f).count k) := by
  induction ms generalizing f with
  | nil => exact (UInt64.add_zero _).symm
  | cons m ms ih =>
    change (run thread ms (f.apply thread m).2).exchange.counters.count k = _
    rw [ih, f.counters_apply thread m, Counters.count_after, recorded, List.count_append,
      UInt64.ofNat_add, UInt64.add_assoc]

end Floor

end CallExchange
