import CallExchange.Proofs.Floor.Counting
import CallExchange.Proofs.Floor.Threads

set_option autoImplicit false

/-!
# Buffers of sync calls

The buffer that the entry of a sync call returns is the caller's to give back. It is decoded once
and then freed once, in the move that ends the call, whatever comes of the decoding. An entry that
aborts leaves no buffer, so what was counted as called and not as freed is what aborted or still
runs.
-/

namespace CallExchange

variable {α ε : Type}

/-- What is done to what an entry left: its buffer, if there is one, is decoded and then freed. -/
def Buffer.usesOf : Except Panic Buffer → List Buffer.Use
  | .ok b => b.uses
  | .error _ => []

def Buffer.countOf (ended : Except Panic Buffer) : Nat := ended.isOk.toNat

def Running.isSync : Running α ε → Bool
  | .sync _ _ => true
  | _ => false

namespace Floor

variable {f : Floor α ε} {m : Move α ε} {ms : List (Move α ε)} {thread : Option String}

def syncRunning (f : Floor α ε) : Nat := f.running.countP fun r => r.any Running.isSync

/-- How the entry of a sync call ended whose call was ended by a move. -/
def syncEnd? (f : Floor α ε) : Move α ε → Option (Except Panic Buffer)
  | .finish i ended =>
    match f.running[i]?.join with
    | some (.sync _ _) => some ended
    | _ => none
  | _ => none

def syncEnds (thread : Option String) : List (Move α ε) → Floor α ε → List (Except Panic Buffer)
  | [], _ => []
  | m :: ms, f => (f.syncEnd? m).toList ++ syncEnds thread ms (f.apply thread m).2

structure EndsSync (f : Floor α ε) (t : Turn α ε) (ended : Except Panic Buffer) : Prop where
  answer : ∃ result text, t.1 = .sync result (UInt64.ofNat (Buffer.countOf ended)) text
  uses : t.2.exchange.bufferUses = f.exchange.bufferUses ++ Buffer.usesOf ended
  freed : t.2.exchange.counters.buffersFreed =
    f.exchange.counters.buffersFreed + UInt64.ofNat (Buffer.countOf ended)

theorem endsSync_finish {i : Nat} {task : String} {codec : Codec α ε} (thread : Option String)
    (hr : f.running[i]?.join = some (.sync task codec)) (ended : Except Panic Buffer) :
    f.EndsSync (f.apply thread (.finish i ended)) ended := by
  have hbooks := Reader.books_ofEntry ⟨task, thread⟩ codec ended f.exchange
  have huses : (Reader.ofEntry ⟨task, thread⟩ codec ended f.exchange).2.bufferUses =
      f.exchange.bufferUses ++ Buffer.usesOf ended := by
    cases ended with
    | error p => exact (List.append_nil _).symm
    | ok b => exact congrArg Exchange.Books.bufferUses hbooks
  have hfreed : (Reader.ofEntry ⟨task, thread⟩ codec ended f.exchange).2.counters.buffersFreed =
      f.exchange.counters.buffersFreed + UInt64.ofNat (Buffer.countOf ended) := by
    cases ended with
    | error p => exact (UInt64.add_zero _).symm
    | ok b => exact congrArg (fun c : Exchange.Books => c.counters.buffersFreed) hbooks
  rw [finish_some thread ended hr]
  refine ⟨⟨_, _, congrArg (Answer.sync _ · _) ?_⟩, huses, hfreed⟩
  refine (congrArg (· - f.exchange.counters.buffersFreed) hfreed).trans ?_
  rw [UInt64.add_comm, UInt64.add_sub_cancel]

theorem buffer?_apply (f : Floor α ε) (thread : Option String) (m : Move α ε) :
    (Move.buffer? (m, (f.apply thread m).1)).elim [] Buffer.uses =
      (f.syncEnd? m).toList.flatMap Buffer.usesOf := by
  cases m with
  | finish i ended =>
    unfold syncEnd?
    dsimp only
    cases hr : f.running[i]?.join with
    | none =>
      rw [finish_none thread ended hr]
      cases ended <;> rfl
    | some r =>
      rw [finish_some thread ended hr]
      cases r <;> cases ended <;> rfl
  | _ => rfl

section Recorded

variable {gone : Bool} {a : Answer α ε}

theorem count_bufferFreed_eq_zero (hm : ∀ i ended, m ≠ .finish i ended) :
    (Move.recorded? gone (m, a)).toList.count .bufferFreed = 0 := by
  refine List.count_eq_zero.2 fun he => ?_
  cases Move.records_of_recorded? (Option.mem_toList.1 he)
  exact hm _ _ rfl

theorem count_syncCall_eq_zero (hm : ∀ task codec, m ≠ .beginSync task codec) :
    (Move.recorded? gone (m, a)).toList.count .syncCall = 0 := by
  refine List.count_eq_zero.2 fun he => ?_
  cases Move.records_of_recorded? (Option.mem_toList.1 he)
  exact hm _ _ rfl

end Recorded

/-- What is counted as freed is the buffer of a sync call that ended. -/
theorem count_bufferFreed (f : Floor α ε) (thread : Option String) (m : Move α ε) :
    (Move.recorded? f.exchange.isGone (m, (f.apply thread m).1)).toList.count .bufferFreed =
      (f.syncEnd? m).toList.countP Except.isOk := by
  cases m with
  | finish i ended =>
    unfold syncEnd?
    dsimp only
    cases hr : f.running[i]?.join with
    | none =>
      rw [finish_none thread ended hr]
      cases ended <;> rfl
    | some r =>
      rw [finish_some thread ended hr]
      cases r <;> cases ended <;> rfl
  | _ =>
    rw [count_bufferFreed_eq_zero (by simp)]
    rfl

theorem syncRunning_launch (f : Floor α ε) (r : Running α ε) :
    (f.launch r).syncRunning = f.syncRunning + r.isSync.toNat := by
  rw [syncRunning, launch, List.countP_append, List.countP_singleton]
  cases r <;> rfl

theorem syncRunning_begin {β : Type} {r : Except Fault β × Exchange} {port : β → PortId}
    {running : β → Running α ε} (hrunning : ∀ b, (running b).isSync = false) :
    (f.begin r port running).2.syncRunning = f.syncRunning := by
  unfold Floor.begin
  split
  · split
    · rfl
    · rw [syncRunning_launch, hrunning]
      rfl
  · rfl

theorem syncRunning_finish (f : Floor α ε) (thread : Option String) (i : Nat)
    (ended : Except Panic Buffer) :
    (f.apply thread (.finish i ended)).2.syncRunning +
      (f.syncEnd? (.finish i ended)).toList.length = f.syncRunning := by
  unfold syncEnd?
  dsimp only
  cases hr : f.running[i]?.join with
  | none =>
    rw [finish_none thread ended hr]
    rfl
  | some r =>
    obtain ⟨hi, hr'⟩ := List.getElem?_eq_some_iff.1 (Option.join_eq_some_iff.1 hr)
    rw [finish_some thread ended hr]
    change (f.running.set i none).countP (fun r => r.any Running.isSync) + _ = _
    rw [List.countP_set hi, hr']
    have hpos : r.isSync = true → 0 < f.syncRunning := fun hsync =>
      List.countP_pos_iff.2 ⟨some r, List.mem_of_getElem hr', hsync⟩
    cases r with
    | sync task codec => exact Nat.sub_add_cancel (hpos rfl)
    | _ => rfl

theorem syncRunning_apply (f : Floor α ε) (thread : Option String) (m : Move α ε) :
    (f.apply thread m).2.syncRunning + (f.syncEnd? m).toList.length = f.syncRunning +
      (Move.recorded? f.exchange.isGone (m, (f.apply thread m).1)).toList.count .syncCall := by
  cases m with
  | finish i ended =>
    rw [syncRunning_finish, count_syncCall_eq_zero (by simp)]
    rfl
  | beginSync task codec =>
    change (if f.session.dispatcher then _ else _ : Turn α ε).2.syncRunning + 0 = _ +
      (Move.recorded? _ (_, (if f.session.dispatcher then _ else _ : Turn α ε).1)).toList.count _
    split
    · exact syncRunning_launch (f.put _) _
    · rfl
  | beginAsync | beginStream =>
    rw [count_syncCall_eq_zero (by simp)]
    exact syncRunning_begin fun _ => rfl
  | beginCallback message =>
    rw [count_syncCall_eq_zero (by simp)]
    change (f.beginCallback message).2.syncRunning = f.syncRunning
    unfold Floor.beginCallback
    dsimp only
    split
    · rfl
    · split
      · rfl
      · exact syncRunning_launch { f with session := _ } .callback
  | step st h =>
    rw [count_syncCall_eq_zero (by simp)]
    exact congrArg (List.countP _) (running_step f thread st)
  | deliver | keep | see | announce =>
    rw [count_syncCall_eq_zero (by simp)]
    rfl

theorem bufferUses_run (thread : Option String) (ms : List (Move α ε)) (f : Floor α ε) :
    (run thread ms f).exchange.bufferUses =
      f.exchange.bufferUses ++ (syncEnds thread ms f).flatMap Buffer.usesOf := by
  induction ms generalizing f with
  | nil => exact (List.append_nil _).symm
  | cons m ms ih =>
    change (run thread ms (f.apply thread m).2).exchange.bufferUses = _
    rw [ih, bufferUses_apply, buffer?_apply, syncEnds, List.flatMap_append, List.append_assoc]

theorem count_bufferFreed_run (thread : Option String) (ms : List (Move α ε)) (f : Floor α ε) :
    (recorded thread ms f).count .bufferFreed = (syncEnds thread ms f).countP Except.isOk := by
  induction ms generalizing f with
  | nil => rfl
  | cons m ms ih =>
    rw [recorded, syncEnds, List.count_append, List.countP_append, ih, count_bufferFreed]

theorem syncRunning_run (thread : Option String) (ms : List (Move α ε)) (f : Floor α ε) :
    (run thread ms f).syncRunning + (syncEnds thread ms f).length =
      f.syncRunning + (recorded thread ms f).count .syncCall := by
  induction ms generalizing f with
  | nil => rfl
  | cons m ms ih =>
    have hrun : (run thread (m :: ms) f).syncRunning =
      (run thread ms (f.apply thread m).2).syncRunning := rfl
    have hrest := ih (f.apply thread m).2
    have hmove := syncRunning_apply f thread m
    rw [hrun, recorded, syncEnds, List.length_append, List.count_append]
    omega

end Floor

/-- Whether the counters say how many sync calls there were and how many buffers they returned.
While no entry of a sync call runs, what was called and not freed is what aborted. -/
structure Counters.FreesAll (c : Counters) (ends : List (Except Panic Buffer)) (running : Nat) :
    Prop where
  calls : c.syncCalls = UInt64.ofNat (ends.length + running)
  freed : c.buffersFreed = UInt64.ofNat (ends.countP Except.isOk)
  aborted : running = 0 →
    c.syncCalls - c.buffersFreed = UInt64.ofNat (ends.countP fun e => ¬e.isOk)

theorem Counters.freesAll {c : Counters} {ends : List (Except Panic Buffer)} {running : Nat}
    (hcalls : c.syncCalls = UInt64.ofNat (ends.length + running))
    (hfreed : c.buffersFreed = UInt64.ofNat (ends.countP Except.isOk)) :
    c.FreesAll ends running := by
  refine ⟨hcalls, hfreed, ?_⟩
  rintro rfl
  rw [hcalls, hfreed, Nat.add_zero, List.length_eq_countP_add_countP Except.isOk, Nat.add_comm,
    UInt64.ofNat_add, UInt64.add_sub_cancel]

namespace Floor

/-- In every run each buffer that the entry of a sync call returned has been decoded once and then
freed once, and no other has. This happens in the move that ends the call, which counts the buffer
and answers with what came of it. An entry that aborts leaves no buffer, and nothing is freed. -/
theorem run_frees_once {s : Settings} {x : Exchange} (hx : Exchange.create s = .ok x)
    (thread : Option String) (ms : List (Move α ε)) :
    let f := run thread ms (start x)
    let ends := syncEnds thread ms (start x)
    f.exchange.bufferUses = ends.flatMap Buffer.usesOf ∧
      f.exchange.counters.FreesAll ends f.syncRunning ∧
      ∀ (i : Nat) (task : String) (codec : Codec α ε) (ended : Except Panic Buffer),
        f.running[i]?.join = some (.sync task codec) →
          f.EndsSync (f.apply thread (.finish i ended)) ended := by
  intro f ends
  obtain ⟨-, rfl⟩ := Exchange.create_eq hx
  refine ⟨bufferUses_run thread ms _, ?_, ?_⟩
  · have hrunning : f.syncRunning + ends.length = 0 + _ := syncRunning_run thread ms _
    refine Counters.freesAll ?_ ?_
    · rw [Nat.add_comm, hrunning, Nat.zero_add]
      exact (count_run thread ms _ .syncCall).trans (UInt64.zero_add _)
    · rw [← count_bufferFreed_run]
      exact (count_run thread ms _ .bufferFreed).trans (UInt64.zero_add _)
  · intro i task codec ended hr
    exact endsSync_finish thread hr ended

/-- A sync call is issued, and its entry issues another, which aborts, and shuts the exchange down.
The entry itself returns a buffer on which the decoder aborts. -/
theorem run_frees_once_nested : ∃ x, Exchange.create .standard = .ok x ∧
    let b : Buffer := .success []
    let codec : Codec Unit Unit :=
      ⟨fun _ => .ok (.success ()), fun _ => false, fun _ => .error .untyped⟩
    let ms : List (Move Unit Unit) :=
      [.beginSync "outer" codec, .beginSync "inner" codec, .finish 1 (.error .untyped),
        .step (.act .shutdown) rfl]
    let f := run none ms (start x)
    let t := f.apply none (.finish 0 (.ok b))
    let ms' := ms ++ [.finish 0 (.ok b)]
    let y := (run none ms' (start x)).exchange
    f.running[0]?.join = some (.sync "outer" codec) ∧
      f.EndsSync t (.ok b) ∧ y.bufferUses = [.decoded b, .freed b] ∧
      (run none ms' (start x)).syncRunning = 0 ∧
      y.counters.syncCalls - y.counters.buffersFreed = 1 := by
  obtain ⟨x, hx⟩ : ∃ x, Exchange.create .standard = .ok x := ⟨_, rfl⟩
  refine ⟨x, hx, ?_⟩
  intro b codec ms f t ms' y
  have hr : f.running[0]?.join = some (.sync "outer" codec) := by
    cases hx
    rfl
  have hends : syncEnds none ms' (start x) = [.error .untyped, .ok b] := by
    cases hx
    rfl
  have hnone : (run none ms' (start x)).syncRunning = 0 := by
    cases hx
    rfl
  obtain ⟨-, -, hfinish⟩ := run_frees_once hx none ms
  obtain ⟨huses, hcounts, -⟩ := run_frees_once hx none ms'
  rw [hends] at huses hcounts
  exact ⟨hr, hfinish 0 "outer" codec (.ok b) hr, huses, hnone, hcounts.aborted hnone⟩

end Floor

end CallExchange
