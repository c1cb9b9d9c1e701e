import CallExchange.Proofs.Floor.Threads
import CallExchange.Proofs.Lookup
import CallExchange.Proofs.Readings
import Mathlib.Data.List.Count
import Mathlib.Data.List.Nodup

set_option autoImplicit false

/-!
# Numbered names

A name ends in its last number sign and the digits after it, since digits are no number signs. So a
name can be read back, whatever the task looks like, and names are told apart by their tasks and
counts. On an exchange the registry is asked by openings of broadcast ports and by stream calls, and
by nothing else.
-/

namespace CallExchange

variable {α ε : Type}

namespace PortNames

variable {r : PortNames} {tasks : List String} {task other : String}

theorem append_mark_inj {α : Type} {l l' tail tail' : List α} {mark : α} (ht : mark ∉ tail)
    (ht' : mark ∉ tail') (h : l ++ mark :: tail = l' ++ mark :: tail') : l = l' ∧ tail = tail' := by
  -- what one head has more than the other starts with the other's mark and ends before its own, so
  -- a mark would be in a tail
  rcases List.append_eq_append_iff.1 h with ⟨between, rfl, he⟩ | ⟨between, rfl, he⟩
  · cases between with
    | nil =>
      cases he
      exact ⟨(List.append_nil l).symm, rfl⟩
    | cons c between =>
      cases he
      exact absurd (List.mem_append_right between List.mem_cons_self) ht
  · cases between with
    | nil =>
      cases he
      exact ⟨List.append_nil l', rfl⟩
    | cons c between =>
      cases he
      exact absurd (List.mem_append_right between List.mem_cons_self) ht'

theorem hash_not_mem_digits (n : Nat) : '#' ∉ Nat.toDigits 10 n := by
  intro h
  have hdigit := Nat.isDigit_of_mem_toDigits (by decide) (by decide) h
  revert hdigit
  decide

theorem toList_name (task : String) (n : UInt64) :
    (name task n).toList = task.toList ++ '#' :: Nat.toDigits 10 n.toNat := by
  rw [name, String.toList_append, String.toList_append, Nat.toString_eq_repr, Nat.toList_repr,
    List.append_assoc]
  rfl

/-- A name tells the task and the count that it was made of, also when the task itself has number
signs and digits in it. -/
theorem name_injective {n m : UInt64} (h : name task n = name other m) : task = other ∧ n = m := by
  have hlist := congrArg String.toList h
  rw [toList_name, toList_name] at hlist
  obtain ⟨htask, hdigits⟩ :=
    append_mark_inj (hash_not_mem_digits _) (hash_not_mem_digits _) hlist
  refine ⟨String.toList_inj.1 htask, UInt64.toNat_inj.1 ?_⟩
  calc
    n.toNat = Nat.ofDigitChars 10 (Nat.toDigits 10 n.toNat) 0 := Nat.ofDigitChars_ten_toDigits.symm
    _ = Nat.ofDigitChars 10 (Nat.toDigits 10 m.toNat) 0 := by rw [hdigits]
    _ = m.toNat := Nat.ofDigitChars_ten_toDigits

theorem count_next (r : PortNames) (task other : String) :
    (r.next task).2.count other = if other = task then r.count task + 1 else r.count other := by
  change (((task, r.count task + 1) :: r.counts.filter fun e => !(e.1 == task)).lookup other).getD 0
    = _
  rw [List.lookup_cons, Lookup.lookup_without]
  by_cases h : other = task
  · rw [if_pos h, if_pos h, h, beq_self_eq_true]
    rfl
  · rw [if_neg h, if_neg h, beq_false_of_ne h]
    rfl

theorem getElem?_nextAll (r : PortNames) (tasks : List String) (i : Nat) :
    (r.nextAll tasks).1[i]? = tasks[i]?.map fun task =>
      name task (r.count task + UInt64.ofNat ((tasks.take i).count task)) := by
  induction tasks generalizing r i with
  | nil => rfl
  | cons first rest ih =>
    cases i with
    | zero => exact congrArg (fun n => some (name first n)) (UInt64.add_zero _).symm
    | succ i =>
      -- what comes after the first request sees it in the registry, not among the requests
      refine (ih (r.next first).2 i).trans ?_
      refine congrArg (fun g => rest[i]?.map g) (funext fun task => ?_)
      rw [count_next, List.take_succ_cons, List.count_cons]
      by_cases h : task = first
      · rw [if_pos h, h, beq_self_eq_true, if_pos rfl, UInt64.ofNat_add, UInt64.add_assoc,
          UInt64.add_comm 1]
        rfl
      · rw [if_neg h, if_neg (by simpa using Ne.symm h), Nat.add_zero]

theorem count_take_lt {i j : Nat} (hi : tasks[i]? = some task) (hij : i < j) :
    (tasks.take i).count task < (tasks.take j).count task := by
  have hnext : (tasks.take (i + 1)).count task = (tasks.take i).count task + 1 := by
    rw [List.take_add_one, hi, List.count_append]
    exact congrArg _ List.count_singleton_self
  have hlater : (tasks.take (i + 1)).count task ≤ (tasks.take j).count task :=
    (List.take_sublist_take_left hij).count_le task
  omega

/-- What the names are that are made for `tasks`, one after the other: a task that was asked for `k`
times before gets its name with the number `k`, and no name comes twice. -/
structure Numbers (tasks names : List String) : Prop where
  name : ∀ i, names[i]? = tasks[i]?.map fun task =>
    task ++ "#" ++ toString ((tasks.take i).count task)
  distinct : names.Nodup

theorem numbers_nextAll (tasks : List String) (h : tasks.length < UInt64.size) :
    Numbers tasks (empty.nextAll tasks).1 := by
  have hword : ∀ i task,
      (UInt64.ofNat ((tasks.take i).count task)).toNat = (tasks.take i).count task := by
    intro i task
    have hcount : (tasks.take i).count task ≤ tasks.length :=
      Nat.le_trans List.count_le_length (List.length_take_le' i tasks)
    exact UInt64.toNat_ofNat_of_lt' (Nat.lt_of_le_of_lt hcount h)
  have hname : ∀ i, (empty.nextAll tasks).1[i]? = tasks[i]?.map fun task =>
      PortNames.name task (UInt64.ofNat ((tasks.take i).count task)) := by
    intro i
    rw [getElem?_nextAll]
    refine congrArg (fun g => tasks[i]?.map g) (funext fun task => ?_)
    rw [show empty.count task = 0 from rfl, UInt64.zero_add]
  refine ⟨fun i => ?_, ?_⟩
  · rw [hname]
    refine congrArg (fun g => tasks[i]?.map g) (funext fun task => ?_)
    rw [PortNames.name, hword]
  · refine List.nodup_iff_getElem?_ne_getElem?.2 fun i j hij hj he => ?_
    obtain ⟨task, hi, hnamed⟩ := Option.map_eq_some_iff.1
      ((hname i).symm.trans (he.trans (List.getElem?_eq_getElem hj)))
    obtain ⟨other, -, hnamed'⟩ := Option.map_eq_some_iff.1
      ((hname j).symm.trans (List.getElem?_eq_getElem hj))
    obtain ⟨rfl, hword'⟩ := name_injective (hnamed.trans hnamed'.symm)
    have hcount := congrArg UInt64.toNat hword'
    rw [hword, hword] at hcount
    exact absurd hcount (Nat.ne_of_lt (count_take_lt hi hij))

end PortNames

namespace Exchange

variable {x y : Exchange}

theorem names_congr (h : y.core = x.core) : y.names = x.names := congrArg Core.names h

theorem Posted.names_eq {p : PortId} {v : Value} {d : Delivery} (hp : Posted x p v d y) :
    y.names = x.names := by
  cases hp with
  | completed | queued => exact (names_congr (core_ring _)).trans rfl
  | dropped why => exact (names_congr (core_drop x p why)).trans rfl

theorem names_closePort (x : Exchange) (p : PortId) : (x.closePort p).2.names = x.names := by
  by_cases hp : p = reversePort
  · rw [hp]
    rfl
  · rw [x.closePort_snd hp]
    unfold cancelPending closeBroadcast
    split <;> split <;> rfl

theorem Broadcast.names_close (b : Broadcast) (x : Exchange) : (b.close x).2.names = x.names := by
  unfold Broadcast.close
  dsimp only
  split
  · split <;> rfl
  · have hport := (x.setInbox b.id (x.inbox b.id).close.2).names_closePort b.id
    split <;> exact hport

theorem names_closeInboxes (x : Exchange) (ps : List PortId) :
    (x.closeInboxes ps).names = x.names := by
  induction ps generalizing x with
  | nil => rfl
  | cons p ps ih => exact ih (x.closeInbox p)

theorem names_shutdown (x : Exchange) : x.shutdown.names = x.names := by
  unfold shutdown
  split
  · rfl
  · dsimp only
    exact (names_congr (core_ring _)).trans (names_closeInboxes _ _)

theorem names_release (x : Exchange) : x.release.names = x.names := by
  unfold release
  split
  · rfl
  · exact x.names_shutdown
  · rfl

theorem OpenedSingle.names_eq {a : Except Fault (PortId × Ticket)} (ho : OpenedSingle x a y) :
    y.names = x.names := by
  cases ho <;> rfl

theorem OpenedBroadcast.names_error {task : String} {e : Fault}
    (ho : OpenedBroadcast x task (.error e) y) : y.names = x.names := by
  cases ho
  rfl

theorem OpenedBroadcast.names_ok {task : String} {b : Broadcast}
    (ho : OpenedBroadcast x task (.ok b) y) : x.names.next task = (b.name, y.names) := by
  cases ho with
  | opened name y hx hn hy => exact Prod.ext hn (congrArg Core.names hy).symm

theorem frame_names : WideFrame fun x y => y.names = x.names where
  refl _ := rfl
  trans h h' := h'.trans h
  note _ _ := rfl
  setInbox _ _ _ := rfl
  closePort := names_closePort
  close := Broadcast.names_close
  release := names_release
  hold _ := rfl
  record _ _ := rfl
  use _ _ := rfl

end Exchange

/-- The task and the name of the broadcast port that a move opened. The name is in the handle that
is given out, or that the entry of a stream call is given. -/
def Move.named? (m : Move α ε) (t : Floor.Turn α ε) : Option (String × String) :=
  match m with
  | .step (.openBroadcast task) _ =>
    match t.1 with
    | .broadcast _ b _ => some (task, b.name)
    | _ => none
  | .beginStream task _ =>
    match t.1, t.2.running.getLast?.join with
    | .reply (.port _ _), some (.stream _ _ port) => some (task, port.name)
    | _, _ => none
  | _ => none

namespace Floor

variable {f : Floor α ε} {m : Move α ε} {thread : Option String}

def named : List (Option String × Move α ε) → Floor α ε → List (String × String)
  | [], _ => []
  | (thread, m) :: ms, f =>
    (m.named? (f.apply thread m)).toList ++ named ms (f.apply thread m).2

theorem names_whileUp {g : Exchange → Outcome Stage Reply}
    (hg : ∃ r st, g f.exchange = .returned r st ∧ st.exchange.names = f.exchange.names) :
    (f.turn (f.session.settle (f.session.stage.whileUp g) Session.replied)).2.exchange.names =
      f.exchange.names := by
  obtain ⟨r, st, he, hst⟩ := hg
  rw [Stage.whileUp]
  split
  · rfl
  · rw [show g f.session.stage.exchange = .returned r st from he]
    exact hst

theorem names_act (a : Action) (h : (Step.act a : Step α ε).isElementary = true) :
    (f.apply thread (.step (.act a) h)).2.exchange.names = f.exchange.names := by
  change (f.turn (f.session.settle (f.session.stage.perform 0 none a)
    Session.replied)).2.exchange.names = _
  unfold Stage.perform Stage.run
  cases a with
  | own | native | invoke | drain => cases h
  | ownClosed | keep | panic => rfl
  | nativeClosed k | nativeInfo k =>
    change (f.turn (f.session.settle (Stage.withPort _ f.session.stage.kept[k]? _)
      _)).2.exchange.names = _
    cases f.session.stage.kept[k]? <;> rfl
  | post p v => exact names_whileUp ⟨_, _, rfl, (f.exchange.post_posted p v).names_eq⟩
  | reverse v => exact names_whileUp ⟨_, _, rfl, (f.exchange.post_posted _ v).names_eq⟩
  | shutdown => exact names_whileUp ⟨_, _, rfl, f.exchange.names_shutdown⟩
  | closePort p => exact names_whileUp ⟨_, _, rfl, f.exchange.names_closePort p⟩
  | notify =>
    refine names_whileUp ?_
    rw [Stage.notify]
    split <;> exact ⟨_, _, rfl, rfl⟩
  | register | unregister | isOpen | portName | takeReverse | callbackCount | counters =>
    exact names_whileUp ⟨_, _, rfl, rfl⟩

theorem names_step (st : Step α ε) (h : st.isElementary = true)
    (hopen : ∀ task, st ≠ .openBroadcast task) :
    (f.apply thread (.step st h)).2.exchange.names = f.exchange.names := by
  cases st with
  | act a => exact names_act a h
  | callAsync | callStream | callSync | collect | pump | pumpOnce | threads => cases h
  | openBroadcast task => exact absurd rfl (hopen task)
  | ready | deferredText | streamInfo | broadcastInfo =>
    exact Exchange.frame_names.withHandle fun _ _ => rfl
  | tryTake | waitTimeout | poll | wait | dropDeferred | next | nextTimeout | closeStream
  | dropStream | readTicket | receive | tryReceive | receiveWithin | closeBroadcast | dropBroadcast
  | dropDispatcher => exact Exchange.frame_names.apply_place rfl fun _ _ _ _ => rfl
  | openSingle =>
    refine Exchange.frame_names.withDispatcher ?_
    have hopen := f.exchange.openSingle_opened.names_eq
    cases f.exchange.openSingle.1 <;> exact hopen
  | reverseHandle | dispatcherText | dispatcherCounters =>
    exact Exchange.frame_names.withDispatcher rfl
  | waitForDelivery t =>
    refine Exchange.frame_names.withDispatcher ?_
    unfold Exchange.waitForDelivery
    cases f.exchange.notifier.wait <;> rfl
  | shutdownDispatcher =>
    exact Exchange.frame_names.withDispatcher (f.exchange.note .shutdownRequested).names_shutdown
  | cloneDispatcher => exact Exchange.frame_names.withDispatcher f.exchange.hold.names_release
  | breakNotifier | saturateNotifier =>
    change (f.turn (f.session.withNotifier _)).2.exchange.names = _
    unfold Session.withNotifier
    dsimp only
    split <;> rfl

theorem names_other (hstep : ∀ task h, m ≠ .step (.openBroadcast task) h)
    (hbegin : ∀ task codec, m ≠ .beginStream task codec) :
    (f.apply thread m).2.exchange.names = f.exchange.names := by
  cases m with
  | step st h => exact names_step st h fun task he => hstep task (he ▸ h) (by subst he; rfl)
  | beginStream task codec => exact absurd rfl (hbegin task codec)
  | deliver p v =>
    change (f.turn (f.session.settle (f.session.stage.on (f.exchange.deliver p v) _)
      _)).2.exchange.names = _
    unfold Exchange.deliver
    split
    · rfl
    · exact (f.exchange.post_posted p v).names_eq
  | keep | see | announce => rfl
  | beginAsync task codec =>
    have hopen := f.exchange.openSingle_opened.names_eq
    change (f.begin (f.exchange.beginAsync task) _ _).2.exchange.names = _
    unfold Floor.begin Exchange.beginAsync
    split
    · cases hs : f.exchange.openSingle with
      | mk r x =>
        rw [hs] at hopen
        cases r <;> exact hopen
    · rfl
  | beginSync task codec =>
    change (if f.session.dispatcher then _ else _ : Turn α ε).2.exchange.names = _
    split <;> rfl
  | beginCallback message =>
    change (f.beginCallback message).2.exchange.names = _
    unfold Floor.beginCallback
    dsimp only
    split
    · rfl
    · split <;> rfl
  | finish i ended => exact Exchange.frame_names.apply_place rfl fun _ _ _ _ => rfl

theorem names_openBroadcast (f : Floor α ε) (thread : Option String) (task : String)
    (h : (Step.openBroadcast task : Step α ε).isElementary = true) :
    let t := f.apply thread (.step (.openBroadcast task) h)
    (Move.named? (.step (.openBroadcast task) h) t = none ∧
      t.2.exchange.names = f.exchange.names) ∨
    ∃ name, Move.named? (.step (.openBroadcast task) h) t = some (task, name) ∧
      f.exchange.names.next task = (name, t.2.exchange.names) := by
  intro t
  have ht : t = f.turn (f.session.withDispatcher fun x =>
    Session.addBroadcast (x.openBroadcast task).1 (f.session.put (x.openBroadcast task).2)) := rfl
  clear_value t
  subst ht
  unfold Session.withDispatcher
  split
  · rw [session_exchange]
    dsimp only
    have hopen := f.exchange.openBroadcast_opened task
    revert hopen
    cases (f.exchange.openBroadcast task).1 with
    | error e => exact fun hopen => .inl ⟨rfl, hopen.names_error⟩
    | ok b => exact fun hopen => .inr ⟨b.name, rfl, hopen.names_ok⟩
  · exact .inl ⟨rfl, rfl⟩

theorem names_beginStream (f : Floor α ε) (thread : Option String) (task : String)
    (codec : Codec α ε) :
    let t := f.apply thread (.beginStream task codec)
    (Move.named? (.beginStream task codec) t = none ∧ t.2.exchange.names = f.exchange.names) ∨
    ∃ name, Move.named? (.beginStream task codec) t = some (task, name) ∧
      f.exchange.names.next task = (name, t.2.exchange.names) := by
  intro t
  have ht : t = f.begin (f.exchange.beginStream task) Exchange.Broadcast.id
    fun port => .stream task codec port := rfl
  clear_value t
  subst ht
  unfold Floor.begin
  split
  · have hopen := f.exchange.openBroadcast_opened task
    cases ha : (f.exchange.openBroadcast task).1 with
    | error e =>
      rw [ha] at hopen
      rw [Exchange.beginStream_error task ha]
      exact .inl ⟨rfl, hopen.names_error⟩
    | ok b =>
      rw [ha] at hopen
      obtain ⟨y, hy, hbegin⟩ := Exchange.beginStream_ok task ha
      rw [hbegin]
      refine .inr ⟨b.name, ?_, hopen.names_ok.trans ?_⟩
      · dsimp only [Move.named?, launch, Stage.portInfo]
        rw [List.getLast?_concat]
        rfl
      · exact congrArg _ (Exchange.names_congr hy).symm
  · exact .inl ⟨rfl, rfl⟩

/-- What a move does to the names: it asks for at most one, of which it tells. -/
theorem names_apply (f : Floor α ε) (thread : Option String) (m : Move α ε) :
    let t := f.apply thread m
    (m.named? t = none ∧ t.2.exchange.names = f.exchange.names) ∨
    ∃ task name, m.named? t = some (task, name) ∧
      f.exchange.names.next task = (name, t.2.exchange.names) := by
  intro t
  by_cases hstep : ∃ task h, m = .step (.openBroadcast task) h
  · obtain ⟨task, h, rfl⟩ := hstep
    exact (names_openBroadcast f thread task h).imp_right fun ⟨name, hn⟩ => ⟨task, name, hn⟩
  · by_cases hbegin : ∃ task codec, m = .beginStream task codec
    · obtain ⟨task, codec, rfl⟩ := hbegin
      exact (names_beginStream f thread task codec).imp_right fun ⟨name, hn⟩ => ⟨task, name, hn⟩
    · refine .inl ⟨?_, names_other (fun task h he => hstep ⟨task, h, he⟩)
        fun task codec he => hbegin ⟨task, codec, he⟩⟩
      unfold Move.named?
      split
      · exact absurd ⟨_, _, rfl⟩ hstep
      · exact absurd ⟨_, _, rfl⟩ hbegin
      · rfl

/-- The names of the ports that were opened are those that the registry makes for their tasks. -/
theorem nextAll_named (ms : List (Option String × Move α ε)) (f : Floor α ε) :
    f.exchange.names.nextAll ((named ms f).map Prod.fst) =
      ((named ms f).map Prod.snd, (runBy ms f).exchange.names) := by
  induction ms generalizing f with
  | nil => rfl
  | cons e ms ih =>
    obtain ⟨thread, m⟩ := e
    have hrest := ih (f.apply thread m).2
    change f.exchange.names.nextAll
        (((m.named? (f.apply thread m)).toList ++ named ms (f.apply thread m).2).map Prod.fst) =
      (((m.named? (f.apply thread m)).toList ++ named ms (f.apply thread m).2).map Prod.snd,
        (runBy ms (f.apply thread m).2).exchange.names)
    obtain ⟨hnone, hsame⟩ | ⟨task, name, hnamed, hnext⟩ := names_apply f thread m
    · rw [hnone, ← hsame]
      exact hrest
    · rw [hnamed]
      change ((f.exchange.names.next task).1 ::
          ((f.exchange.names.next task).2.nextAll ((named ms _).map Prod.fst)).1,
          ((f.exchange.names.next task).2.nextAll ((named ms _).map Prod.fst)).2) = _
      rw [hnext, hrest]
      rfl

/-- The names of broadcast ports are numbered for each task, and all distinct: those that a registry
makes for any requests, and those of the ports that a run opens, for streams and for itself, on
whatever threads. -/
theorem port_names_distinct {tasks : List String} (h : tasks.length < UInt64.size) {s : Settings}
    {x : Exchange} (hx : Exchange.create s = .ok x) (ms : List (Option String × Move α ε))
    (hms : (named ms (start x)).length < UInt64.size) :
    PortNames.Numbers tasks (PortNames.empty.nextAll tasks).1 ∧
      PortNames.Numbers ((named ms (start x)).map Prod.fst)
        ((named ms (start x)).map Prod.snd) := by
  refine ⟨PortNames.numbers_nextAll tasks h, ?_⟩
  have hstart : (start x : Floor α ε).exchange.names = .empty := by
    obtain ⟨-, rfl⟩ := Exchange.create_eq hx
    rfl
  have hnamed := nextAll_named ms (start x)
  rw [hstart] at hnamed
  have hnumbers := PortNames.numbers_nextAll ((named ms (start x)).map Prod.fst)
    (by rw [List.length_map]; exact hms)
  rw [hnamed] at hnumbers
  exact hnumbers

/-- Tasks that look like names, and no name at all. -/
theorem port_names_distinct_of_marks : ∃ x, Exchange.create .standard = .ok x ∧
    let tasks := ["a", "a#0", "a", "", "#", "a#0", ""]
    let codec : Codec Unit Unit :=
      ⟨fun _ => .ok (.success ()), fun _ => false, fun _ => .ok (.success ())⟩
    let ms : List (Option String × Move Unit Unit) :=
      [(none, .step (.openBroadcast "a") rfl), (some "t", .beginStream "a#0" codec),
        (none, .beginStream "a" codec), (some "t", .step .shutdownDispatcher rfl),
        (none, .beginStream "a" codec)]
    (tasks.length = 7 ∧ (PortNames.empty.nextAll tasks).1 =
        ["a#0", "a#0#0", "a#1", "#0", "##0", "a#0#1", "#1"] ∧
        named ms (start x) = [("a", "a#0"), ("a#0", "a#0#0"), ("a", "a#1")]) ∧
      PortNames.Numbers tasks (PortNames.empty.nextAll tasks).1 ∧
      PortNames.Numbers ((named ms (start x)).map Prod.fst)
        ((named ms (start x)).map Prod.snd) := by
  obtain ⟨x, hx⟩ : ∃ x, Exchange.create .standard = .ok x := ⟨_, rfl⟩
  refine ⟨x, hx, ?_⟩
  intro tasks codec ms
  have hnamed : named ms (start x) = [("a", "a#0"), ("a#0", "a#0#0"), ("a", "a#1")] := by
    cases hx
    decide +kernel
  exact ⟨⟨rfl, by decide, hnamed⟩,
    port_names_distinct (by decide) hx ms (by rw [hnamed]; decide)⟩

end Floor

end CallExchange
