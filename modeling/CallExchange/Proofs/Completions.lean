import CallExchange.Proofs.Pending
import Mathlib.Data.List.Basic

set_option autoImplicit false

/-!
# Slots by their history

What a slot is follows from what was done to it: the first settlement decides, the first read that
finds something takes the value, and the last poll that found nothing is who will be woken. So every
answer and every wake is told by the history alone.
-/

namespace CallExchange.OneShot

variable {α : Type}

inductive Act (α : Type) where
  /-- The slot is settled, with a value or without. -/
  | settle (v : Option α)
  | read (r : Read)

inductive Deed (α : Type) where
  | settled (v : Option α)
  | read (r : Read) (a : Answer α)

namespace Act

def exec (a : Act α) (s : OneShot α) : OneShot α × Option Waker :=
  match a with
  | settle (some v) => s.complete v
  | settle none => s.abandon
  | read r => ((r.run s).2, none)

def deed (a : Act α) (s : OneShot α) : Deed α :=
  match a with
  | settle v => .settled v
  | read r => .read r (r.run s).1

end Act

def after (as : List (Act α)) (s : OneShot α) : OneShot α := as.foldl (fun s a => (a.exec s).1) s

def deeds : List (Act α) → OneShot α → List (Deed α)
  | [], _ => []
  | a :: as, s => a.deed s :: deeds as (a.exec s).1

def wakes : List (Act α) → OneShot α → List Waker
  | [], _ => []
  | a :: as, s => (a.exec s).2.toList ++ wakes as (a.exec s).1

def Deed.settles? : Deed α → Option (Option α)
  | settled v => some v
  | read _ _ => none

def Deed.finds : Deed α → Bool
  | read _ (.verdict _) | read _ (.timed _) => true
  | _ => false

def Deed.findsValue : Deed α → Bool
  | read _ (.verdict (.value _)) | read _ (.timed (.value _)) => true
  | _ => false

def Deed.awaits (d : Deed α) (w : Option Waker) : Option Waker :=
  match d with
  | read (.poll w') .pending => some w'
  | _ => w

/-- The first settlement, if there was one. -/
def outcome (h : List (Deed α)) : Option (Option α) := h.findSome? Deed.settles?

def isSpent (h : List (Deed α)) : Bool := h.any Deed.finds

/-- The waker of the last poll that found nothing. -/
def watcher (h : List (Deed α)) : Option Waker := h.foldl (fun w d => d.awaits w) none

/-- What the next read finds. -/
def due (h : List (Deed α)) : Option (Verdict α) :=
  (outcome h).map fun
    | some v => if isSpent h then .abandoned else .value v
    | none => .abandoned

/-- How a read answers when it finds `v`, or nothing. -/
def Read.shows (r : Read) (v : Option (Verdict α)) : Answer α :=
  match r with
  | .isSettled => .settled v.isSome
  | .tryTake | .poll _ => (v.map .verdict).getD .pending
  | .wait => (v.map .verdict).getD .wouldBlock
  | .waitTimeout t => if t.noDeadline then .unwound .noDeadline else (v.map .timed).getD .timedOut
  | .drop => .dropped

def wakesAfter (h : List (Deed α)) : Act α → Option Waker
  | .settle _ => if (outcome h).isSome then none else watcher h
  | .read _ => none

/-- What a slot has to do with what was done to it. -/
structure Behaves (h : List (Deed α)) (s : OneShot α) : Prop where
  settled : s.isSettled = (outcome h).isSome
  /-- Once settled it stays so. -/
  stays : ∀ as, s.isSettled = true → (after as s).isSettled = true
  answers : ∀ r : Read, (r.run s).1 = r.shows (due h)
  once : h.countP Deed.findsValue ≤ 1
  wakes : ∀ a : Act α, (a.exec s).2 = wakesAfter h a

def ofDeeds (h : List (Deed α)) : OneShot α :=
  match outcome h with
  | none => .pending (watcher h)
  | some none => .abandoned
  | some (some v) => if isSpent h then .taken else .ready v

variable {h : List (Deed α)} {s : OneShot α} {a : Act α} {v : α}

theorem outcome_concat (h : List (Deed α)) (d : Deed α) :
    outcome (h ++ [d]) = (outcome h).or d.settles? := by
  rw [outcome, List.findSome?_append, List.findSome?_singleton]
  rfl

theorem isSpent_concat (h : List (Deed α)) (d : Deed α) :
    isSpent (h ++ [d]) = (isSpent h || d.finds) := by
  rw [isSpent, List.any_append, List.any_cons, List.any_nil, Bool.or_false]
  rfl

theorem watcher_concat (h : List (Deed α)) (d : Deed α) :
    watcher (h ++ [d]) = d.awaits (watcher h) := List.foldl_concat ..

theorem isSettled_settle (v : Option α) (s : OneShot α) :
    ((Act.settle v).exec s).1.isSettled = true := by
  cases v with
  | none => exact isSettled_abandon s
  | some v => exact isSettled_complete v s

theorem Act.exec_of_isSettled (v : Option α) (hs : s.isSettled = true) :
    (Act.settle v).exec s = (s, none) := by
  cases v with
  | none => exact settle_of_isSettled s _ hs
  | some v => exact settle_of_isSettled s _ hs

section Reading

variable (r : Read)

theorem Read.run_waitTimeout (t : Timeout) (s : OneShot α) : (Read.waitTimeout t).run s =
    if t.noDeadline then (.unwound .noDeadline, s) else answerOf .timedOut .timed s.take := by
  simp only [Read.run, takeWithin]
  split
  · rename_i h
    split at h
    · rename_i ht
      cases h
      rw [if_pos ht]
    · cases h
  · rename_i h
    split at h
    · cases h
    · rename_i ht
      cases h
      rw [if_neg ht]

theorem Read.run_fst (s : OneShot α) : (r.run s).1 = r.shows s.take.1 := by
  cases r with
  | waitTimeout t =>
    rw [run_waitTimeout, Read.shows]
    cases t.noDeadline with
    | true => rfl
    | false => cases s <;> rfl
  | _ => cases s <;> rfl

theorem Read.run_pending (w : Option Waker) : (r.run (pending w : OneShot α)).2 =
    pending ((Deed.read r (r.run (pending w : OneShot α)).1).awaits w) := by
  cases r with
  | waitTimeout t =>
    rw [run_waitTimeout]
    cases t.noDeadline <;> rfl
  | _ => rfl

theorem Read.run_snd_of_settled (hs : s.isSettled = true) :
    (r.run s).2 = if (Deed.read r (r.run s).1).finds then s.take.2 else s := by
  cases r with
  | waitTimeout t =>
    rw [run_waitTimeout]
    cases t.noDeadline <;> cases s <;> rfl
  | _ => cases s <;> first | rfl | cases hs

theorem Read.finds_shows {v : Option (Verdict α)} (h : (Deed.read r (r.shows v)).finds = true) :
    v.isSome = true := by
  cases v with
  | some v => rfl
  | none =>
    cases r with
    | waitTimeout t =>
      rw [Read.shows] at h
      cases ht : t.noDeadline <;> rw [ht] at h <;> cases h
    | _ => cases h

theorem Deed.finds_of_findsValue {d : Deed α} (h : d.findsValue = true) : d.finds = true := by
  unfold Deed.findsValue at h
  split at h <;> first | rfl | cases h

theorem Read.findsValue_abandoned :
    (Deed.read r (r.shows (some (.abandoned : Verdict α)))).findsValue = false := by
  cases r with
  | waitTimeout t =>
    rw [Read.shows]
    cases t.noDeadline <;> rfl
  | _ => rfl

end Reading

/-- Nothing is found before the settlement, and at most one value ever. -/
structure Told (h : List (Deed α)) : Prop where
  spent : isSpent h = true → (outcome h).isSome = true
  unspent : isSpent h = false → h.countP Deed.findsValue = 0
  once : h.countP Deed.findsValue ≤ 1

theorem told_nil : Told ([] : List (Deed α)) := ⟨nofun, fun _ => rfl, Nat.zero_le 1⟩

theorem isSettled_ofDeeds (h : List (Deed α)) : (ofDeeds h).isSettled = (outcome h).isSome := by
  unfold ofDeeds
  split
  · rename_i he
    rw [he]
    rfl
  · rename_i he
    rw [he]
    rfl
  · rename_i v he
    rw [he]
    cases isSpent h <;> rfl

theorem isSettled_of_outcome {o : Option α} (ho : outcome h = some o) :
    (ofDeeds h).isSettled = true := by
  rw [isSettled_ofDeeds, ho]
  rfl

theorem take_ofDeeds (h : List (Deed α)) : (ofDeeds h).take.1 = due h := by
  unfold ofDeeds due
  cases outcome h with
  | none => rfl
  | some o =>
    cases o with
    | none => rfl
    | some v => cases hs : isSpent h <;> simp [take]

theorem ofDeeds_pending (ho : outcome h = none) : ofDeeds h = .pending (watcher h) := by
  rw [ofDeeds, ho]

theorem Told.unspent_of_open (ht : Told h) (ho : outcome h = none) : isSpent h = false := by
  cases hs : isSpent h with
  | false => rfl
  | true =>
    have hsome := ht.spent hs
    rw [ho] at hsome
    cases hsome

theorem Told.settled (ht : Told h) (v : Option α) : Told (h ++ [.settled v]) := by
  have hcount : (h ++ [Deed.settled v]).countP Deed.findsValue = h.countP Deed.findsValue := by
    rw [List.countP_append]
    rfl
  refine ⟨fun hs => ?_, fun hs => ?_, hcount ▸ ht.once⟩
  · rw [outcome_concat]
    cases outcome h <;> rfl
  · rw [isSpent_concat, Bool.or_eq_false_iff] at hs
    rw [hcount, ht.unspent hs.1]

theorem exec_settle (ht : Told h) (v : Option α) :
    ((Act.settle v).exec (ofDeeds h)).1 = ofDeeds (h ++ [.settled v]) := by
  have hspent : isSpent (h ++ [.settled v]) = isSpent h :=
    (isSpent_concat h _).trans (Bool.or_false _)
  have houtcome : outcome (h ++ [.settled v]) = (outcome h).or (some v) := outcome_concat h _
  cases ho : outcome h with
  | none =>
    rw [ofDeeds_pending ho, ofDeeds, houtcome, ho, hspent, ht.unspent_of_open ho]
    cases v <;> rfl
  | some o =>
    rw [Act.exec_of_isSettled v (isSettled_of_outcome ho), ofDeeds, ofDeeds, houtcome, ho, hspent]
    cases o <;> rfl

theorem outcome_read (h : List (Deed α)) (r : Read) (x : Answer α) :
    outcome (h ++ [.read r x]) = outcome h := (outcome_concat h _).trans Option.or_none

theorem Told.read (ht : Told h) (r : Read) : Told (h ++ [.read r (r.shows (due h))]) := by
  have houtcome := outcome_read h r (r.shows (due h))
  have hspent := isSpent_concat h (.read r (r.shows (due h)))
  have hcount : (h ++ [Deed.read r (r.shows (due h))]).countP Deed.findsValue =
      h.countP Deed.findsValue + (Deed.read r (r.shows (due h))).findsValue.toNat := by
    rw [List.countP_append, List.countP_singleton]
    cases (Deed.read r (r.shows (due h))).findsValue <;> rfl
  refine ⟨fun hs => ?_, fun hs => ?_, ?_⟩
  · rw [houtcome]
    rw [hspent, Bool.or_eq_true] at hs
    rcases hs with hs | hs
    · exact ht.spent hs
    · have hsome := r.finds_shows hs
      rw [due, Option.isSome_map] at hsome
      exact hsome
  · rw [hspent, Bool.or_eq_false_iff] at hs
    have hvalue : (Deed.read r (r.shows (due h))).findsValue = false :=
      Bool.eq_false_iff.2 fun hv => Bool.eq_false_iff.1 hs.2 (Deed.finds_of_findsValue hv)
    rw [hcount, hvalue, ht.unspent hs.1]
    rfl
  · rw [hcount]
    cases hs : isSpent h with
    | false =>
      rw [ht.unspent hs, Nat.zero_add]
      exact Bool.toNat_le _
    | true =>
      -- what was taken is not found again
      have hdue : due h = some .abandoned := by
        obtain ⟨o, ho⟩ := Option.isSome_iff_exists.1 (ht.spent hs)
        rw [due, ho, hs]
        cases o <;> rfl
      rw [hdue, r.findsValue_abandoned]
      exact ht.once

theorem exec_read (h : List (Deed α)) (r : Read) :
    (r.run (ofDeeds h)).2 = ofDeeds (h ++ [.read r (r.shows (due h))]) := by
  have hfst : (r.run (ofDeeds h)).1 = r.shows (due h) := by rw [r.run_fst, take_ofDeeds]
  have houtcome := outcome_read h r (r.shows (due h))
  have hspent := isSpent_concat h (.read r (r.shows (due h)))
  cases ho : outcome h with
  | none =>
    rw [ofDeeds_pending (houtcome.trans ho), watcher_concat, ← hfst, ofDeeds_pending ho]
    exact r.run_pending _
  | some o =>
    rw [r.run_snd_of_settled (isSettled_of_outcome ho), hfst, ofDeeds, ofDeeds, houtcome, ho,
      hspent]
    cases o with
    | none => exact ite_self _
    | some v =>
      cases isSpent h <;> cases (Deed.read r (r.shows (due h))).finds <;> rfl

theorem told_exec (ht : Told h) (a : Act α) :
    Told (h ++ [a.deed (ofDeeds h)]) ∧
      (a.exec (ofDeeds h)).1 = ofDeeds (h ++ [a.deed (ofDeeds h)]) := by
  cases a with
  | settle v => exact ⟨ht.settled v, exec_settle ht v⟩
  | read r =>
    have hdeed : (Act.read r).deed (ofDeeds h) = .read r (r.shows (due h)) := by
      rw [Act.deed, r.run_fst, take_ofDeeds]
    rw [hdeed]
    exact ⟨ht.read r, exec_read h r⟩

theorem told_after (ht : Told h) (as : List (Act α)) :
    Told (h ++ deeds as (ofDeeds h)) ∧ after as (ofDeeds h) = ofDeeds (h ++ deeds as (ofDeeds h)) := by
  induction as generalizing h with
  | nil =>
    rw [deeds, List.append_nil]
    exact ⟨ht, rfl⟩
  | cons a as ih =>
    obtain ⟨hnext, hexec⟩ := told_exec ht a
    have hlater := ih hnext
    rw [List.append_assoc, ← hexec] at hlater
    exact hlater

theorem wakes_ofDeeds (h : List (Deed α)) (a : Act α) :
    (a.exec (ofDeeds h)).2 = wakesAfter h a := by
  cases a with
  | read r => rfl
  | settle v =>
    rw [wakesAfter, ← isSettled_ofDeeds]
    cases ho : outcome h with
    | none =>
      rw [ofDeeds_pending ho]
      cases v <;> rfl
    | some o =>
      have hsettled := isSettled_of_outcome ho
      rw [Act.exec_of_isSettled v hsettled, if_pos hsettled]

theorem isSettled_exec (a : Act α) (hs : s.isSettled = true) : (a.exec s).1.isSettled = true := by
  cases a with
  | read r => rw [Act.exec, Read.isSettled_run, hs]
  | settle v => exact isSettled_settle v s

theorem isSettled_after (as : List (Act α)) (hs : s.isSettled = true) :
    (after as s).isSettled = true := by
  induction as generalizing s with
  | nil => exact hs
  | cons a as ih => exact ih (isSettled_exec a hs)

/-- Every slot behaves as its history tells. -/
theorem behaves_after (as : List (Act α)) : Behaves (deeds as fresh) (after as fresh) := by
  obtain ⟨ht, he⟩ := told_after told_nil as
  change after as fresh = ofDeeds (deeds as fresh) at he
  change Told (deeds as fresh) at ht
  rw [he]
  exact ⟨isSettled_ofDeeds _, fun bs => isSettled_after bs,
    fun r => by rw [r.run_fst, take_ofDeeds],
    ht.once, wakes_ofDeeds _⟩

theorem after_append (as bs : List (Act α)) (s : OneShot α) :
    after (as ++ bs) s = after bs (after as s) := List.foldl_append ..

theorem wakes_append (as bs : List (Act α)) (s : OneShot α) :
    wakes (as ++ bs) s = wakes as s ++ wakes bs (after as s) := by
  induction as generalizing s with
  | nil => rfl
  | cons a as ih =>
    change (a.exec s).2.toList ++ wakes (as ++ bs) (a.exec s).1 = _
    rw [ih, ← List.append_assoc]
    rfl

namespace Pair

def settling (p : Pair α) (v : Option α) : List (Act α) := if p.writer then [.settle v] else []
def reading (p : Pair α) (r : Read) : List (Act α) := if p.reader then [.read r] else []

def acts (p : Pair α) : Command α → List (Act α)
  | .complete v => p.settling (some v)
  | .dropWriter => p.settling none
  | .read r => p.reading r
  | .race r v =>
    if p.reader && r.mustWait p.slot then p.settling v ++ p.reading r
    else p.reading r ++ p.settling v

def run (cs : List (Command α)) (p : Pair α) : Pair α := cs.foldl (fun p c => (p.apply c).2.2) p

def allActs : List (Command α) → Pair α → List (Act α)
  | [], _ => []
  | c :: cs, p => p.acts c ++ allActs cs (p.apply c).2.2

/-- A command does its acts to the slot, one after the other, and nothing else. -/
structure Plays (p : Pair α) (c : Command α) : Prop where
  slot : (p.apply c).2.2.slot = after (p.acts c) p.slot
  woken : (p.apply c).2.1.toList = wakes (p.acts c) p.slot
  answer : ∀ r a, Deed.read r a ∈ deeds (p.acts c) p.slot → (p.apply c).1 = a

variable {p : Pair α}

theorem slot_settle (p : Pair α) (v : Option α) :
    (p.settle v).2.2.slot = after (p.settling v) p.slot ∧
      (p.settle v).2.1.toList = wakes (p.settling v) p.slot ∧
      (p.settle v).2.2.reader = p.reader := by
  unfold settle settling
  cases p.writer with
  | false => exact ⟨rfl, rfl, rfl⟩
  | true => cases v <;> exact ⟨rfl, (List.append_nil _).symm, rfl⟩

theorem slot_read (p : Pair α) (r : Read) :
    (p.read r).2.slot = after (p.reading r) p.slot ∧ (p.read r).2.writer = p.writer := by
  unfold read reading
  cases p.reader <;> exact ⟨rfl, rfl⟩

theorem wakes_reading (p : Pair α) (r : Read) (s : OneShot α) : wakes (p.reading r) s = [] := by
  unfold reading
  cases p.reader <;> rfl

theorem answer_read {r r' : Read} {a : Answer α}
    (h : Deed.read r' a ∈ deeds (p.reading r) p.slot) : (p.read r).1 = a := by
  unfold read
  unfold reading at h
  cases hp : p.reader with
  | false =>
    rw [hp] at h
    cases h
  | true =>
    rw [hp] at h
    cases List.mem_singleton.1 h
    rfl

theorem not_read_settling {v : Option α} {r : Read} {a : Answer α} (s : OneShot α) :
    Deed.read r a ∉ deeds (p.settling v) s := by
  unfold settling
  cases p.writer with
  | false => exact List.not_mem_nil
  | true =>
    intro h
    cases List.mem_singleton.1 h

theorem deeds_append (as bs : List (Act α)) (s : OneShot α) :
    deeds (as ++ bs) s = deeds as s ++ deeds bs (after as s) := by
  induction as generalizing s with
  | nil => rfl
  | cons a as ih => exact congrArg (a.deed s :: ·) (ih _)

theorem plays_settle (v : Option α) (c : Command α) (hc : p.apply c = p.settle v)
    (ha : p.acts c = p.settling v) : p.Plays c := by
  obtain ⟨hslot, hwoken, -⟩ := p.slot_settle v
  refine ⟨by rw [hc, ha, hslot], by rw [hc, ha, hwoken], fun r a h => ?_⟩
  rw [ha] at h
  exact absurd h (not_read_settling _)

/-- A read that waits finds what the other thread brings, and one that does not is over before. -/
theorem plays_race (p : Pair α) (r : Read) (v : Option α) : p.Plays (.race r v) := by
  cases hwait : p.reader && r.mustWait p.slot with
  | true =>
    obtain ⟨hsettled, hwoken, hreader⟩ := p.slot_settle v
    have hreading : (p.settle v).2.2.reading r = p.reading r := by rw [reading, hreader, reading]
    have hread := (p.settle v).2.2.slot_read r
    rw [hreading, hsettled] at hread
    have happly : p.apply (.race r v) =
        (((p.settle v).2.2.read r).1, (p.settle v).2.1, ((p.settle v).2.2.read r).2) := if_pos hwait
    have hacts : p.acts (.race r v) = p.settling v ++ p.reading r := if_pos hwait
    refine ⟨?_, ?_, fun r' a h => ?_⟩
    · rw [happly, hacts, after_append]
      exact hread.1
    · rw [happly, hacts, wakes_append, wakes_reading, List.append_nil]
      exact hwoken
    · rw [hacts, deeds_append] at h
      rw [happly]
      rcases List.mem_append.1 h with h | h
      · exact absurd h (not_read_settling _)
      · rw [← hsettled, ← hreading] at h
        exact answer_read h
  | false =>
    obtain ⟨hread, hwriter⟩ := p.slot_read r
    have hsettling : (p.read r).2.settling v = p.settling v := by rw [settling, hwriter, settling]
    obtain ⟨hsettled, hwoken, -⟩ := (p.read r).2.slot_settle v
    rw [hsettling, hread] at hsettled hwoken
    have hwait : ¬ (p.reader && r.mustWait p.slot) = true := Bool.eq_false_iff.1 hwait
    have happly : p.apply (.race r v) =
        ((p.read r).1, ((p.read r).2.settle v).2.1, ((p.read r).2.settle v).2.2) := if_neg hwait
    have hacts : p.acts (.race r v) = p.reading r ++ p.settling v := if_neg hwait
    refine ⟨?_, ?_, fun r' a h => ?_⟩
    · rw [happly, hacts, after_append]
      exact hsettled
    · rw [happly, hacts, wakes_append, wakes_reading]
      exact hwoken
    · rw [hacts, deeds_append] at h
      rw [happly]
      rcases List.mem_append.1 h with h | h
      · exact answer_read h
      · exact absurd h (not_read_settling _)

theorem plays (p : Pair α) (c : Command α) : p.Plays c := by
  cases c with
  | complete v => exact plays_settle (some v) _ rfl rfl
  | dropWriter => exact plays_settle none _ rfl rfl
  | read r =>
    exact ⟨(p.slot_read r).1, (p.wakes_reading r p.slot).symm, fun r' a h => answer_read h⟩
  | race r v => exact p.plays_race r v

theorem slot_run (cs : List (Command α)) (p : Pair α) :
    (run cs p).slot = after (allActs cs p) p.slot := by
  induction cs generalizing p with
  | nil => rfl
  | cons c cs ih =>
    rw [allActs, after_append, ← (p.plays c).slot]
    exact ih _

end Pair

end CallExchange.OneShot
