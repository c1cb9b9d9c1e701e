import CallExchange.Proofs.Floor.Counting

set_option autoImplicit false

/-!
# Counts of reverse calls

A reverse call ends in one of three ways: it is refused before anything runs, its callback returns,
or its callback aborts. The first two are counted. An abort unwinds past the place where a call is
counted, so the counters say nothing of it.
-/

namespace CallExchange

variable {α ε : Type}

inductive CallEnd where
  | ran
  | refused
  | aborted
deriving DecidableEq

def CallEnd.ofEntry : Except Panic Buffer → CallEnd
  | .ok _ => ran
  | .error _ => aborted

namespace Move

variable {m : Move α ε} {a : Answer α ε} {gone : Bool}

theorem eq_finish_of_recorded (h : recorded? gone (m, a) = some .callbackInvoked) :
    ∃ i ended, m = .finish i ended ∧ a = .reply .done := by
  cases records_of_recorded? h
  exact ⟨_, _, rfl, rfl⟩

theorem eq_beginCallback_of_recorded (h : recorded? gone (m, a) = some .callbackFailed) :
    ∃ message e, m = .beginCallback message ∧ a = .reply (.fault e) := by
  cases records_of_recorded? h
  exact ⟨_, _, rfl, rfl⟩

end Move

namespace Floor

variable {f : Floor α ε} {m : Move α ε} {ms : List (Move α ε)} {thread : Option String}

/-- How the reverse call ended that a move brought to an end, if it did: one that cannot be made is
refused at once, and any other ends with its callback. -/
def callEnd? (f : Floor α ε) : Move α ε → Option CallEnd
  | .beginCallback message =>
    if f.exchange.isGone then none
    else
      match f.exchange.callbacks.read message with
      | .error _ => some .refused
      | .ok _ => none
  | .finish i ended =>
    match f.running[i]?.join with
    | some .callback => some (.ofEntry ended)
    | _ => none
  | _ => none

def callEnds (thread : Option String) : List (Move α ε) → Floor α ε → List CallEnd
  | [], _ => []
  | m :: ms, f => (f.callEnd? m).toList ++ callEnds thread ms (f.apply thread m).2

theorem callEnd?_eq_ran : f.callEnd? m = some .ran ↔
    ∃ i b, m = .finish i (.ok b) ∧ f.running[i]?.join = some .callback := by
  constructor
  · intro h
    unfold callEnd? at h
    split at h
    · split at h
      · cases h
      · split at h <;> cases h
    · rename_i i ended
      split at h
      · cases ended with
        | ok b => exact ⟨i, b, rfl, by assumption⟩
        | error p => cases h
      · cases h
    · cases h
  · rintro ⟨i, b, rfl, hr⟩
    unfold callEnd?
    dsimp only
    rw [hr]
    rfl

theorem callEnd?_eq_refused : f.callEnd? m = some .refused ↔
    ∃ message e, m = .beginCallback message ∧ f.exchange.isGone = false ∧
      f.exchange.callbacks.read message = .error e := by
  constructor
  · intro h
    unfold callEnd? at h
    split at h
    · rename_i message
      split at h
      · cases h
      · rename_i hup
        split at h
        · exact ⟨message, _, rfl, Bool.eq_false_iff.2 hup, by assumption⟩
        · cases h
    · rename_i i ended
      split at h
      · cases ended <;> cases h
      · cases h
    · cases h
  · rintro ⟨message, e, rfl, hup, hr⟩
    unfold callEnd?
    dsimp only
    rw [hup, hr]
    rfl

theorem recorded_ran (f : Floor α ε) (thread : Option String) (m : Move α ε) :
    Move.recorded? f.exchange.isGone (m, (f.apply thread m).1) = some .callbackInvoked ↔
      f.callEnd? m = some .ran := by
  rw [callEnd?_eq_ran]
  constructor
  · intro h
    obtain ⟨i, ended, rfl, ha⟩ := Move.eq_finish_of_recorded h
    change (f.finish thread i ended).1 = _ at ha
    unfold finish at ha
    split at ha
    · cases ha
    · rename_i r hr
      cases r with
      | async | stream | sync => cases ha
      | callback =>
        cases ended with
        | ok b => exact ⟨i, b, rfl, hr⟩
        | error p => cases ha
  · rintro ⟨i, b, rfl, hr⟩
    change Move.recorded? _ (_, (f.finish thread i (.ok b)).1) = _
    unfold finish
    rw [hr]
    rfl

theorem recorded_refused (f : Floor α ε) (thread : Option String) (m : Move α ε) :
    Move.recorded? f.exchange.isGone (m, (f.apply thread m).1) = some .callbackFailed ↔
      f.callEnd? m = some .refused := by
  rw [callEnd?_eq_refused]
  constructor
  · intro h
    obtain ⟨message, e, rfl, ha⟩ := Move.eq_beginCallback_of_recorded h
    change (f.beginCallback message).1 = _ at ha
    unfold beginCallback at ha
    dsimp only at ha
    split at ha
    · cases ha
    · rename_i hup
      split at ha
      · exact ⟨message, _, rfl, Bool.eq_false_iff.2 hup, by assumption⟩
      · cases ha
  · rintro ⟨message, e, rfl, hup, hr⟩
    change Move.recorded? _ (_, (f.beginCallback message).1) = _
    unfold beginCallback
    dsimp only
    rw [session_exchange, if_neg (Bool.eq_false_iff.1 hup), hr]
    rfl

/-- An event is counted as often as calls end in the way it stands for. -/
theorem count_recorded {e : Counters.Event} {k : CallEnd}
    (h : ∀ (f : Floor α ε) (m : Move α ε),
      Move.recorded? f.exchange.isGone (m, (f.apply thread m).1) = some e ↔ f.callEnd? m = some k)
    (ms : List (Move α ε)) (f : Floor α ε) :
    (recorded thread ms f).count e = (callEnds thread ms f).count k := by
  induction ms generalizing f with
  | nil => rfl
  | cons m ms ih =>
    rw [recorded, callEnds, List.count_append, List.count_append, ih]
    congr 1
    by_cases hm : f.callEnd? m = some k
    · rw [(h f m).2 hm, hm, Option.toList_some, Option.toList_some, List.count_singleton_self,
        List.count_singleton_self]
    · rw [List.count_eq_zero.2 fun he => hm ((h f m).1 (Option.mem_toList.1 he)),
        List.count_eq_zero.2 fun hk => hm (Option.mem_toList.1 hk)]

end Floor

/-- Every reverse call that ended is counted, as failed unless its callback returned. -/
def Counters.CountsCalls (c : Counters) (ends : List CallEnd) : Prop :=
  c.callbacksInvoked + c.callbacksFailed = UInt64.ofNat ends.length ∧
    c.callbacksFailed = UInt64.ofNat (ends.count .refused + ends.count .aborted)

theorem CallEnd.length_eq (ends : List CallEnd) :
    ends.length = ends.count .ran + ends.count .refused + ends.count .aborted := by
  induction ends with
  | nil => rfl
  | cons e ends ih =>
    rw [List.length_cons, List.count_cons, List.count_cons, List.count_cons, ih]
    cases e <;> simp <;> omega

namespace Counters

theorem eq_add_ofNat_iff (a : UInt64) (n : Nat) : a = a + UInt64.ofNat n ↔ UInt64.size ∣ n := by
  rw [UInt64.left_eq_add, UInt64.ofNat_eq_iff_mod_eq_toNat]
  exact Nat.dvd_iff_mod_eq_zero.symm

theorem countsCalls_iff {c : Counters} {ends : List CallEnd}
    (hran : c.callbacksInvoked = UInt64.ofNat (ends.count .ran))
    (hrefused : c.callbacksFailed = UInt64.ofNat (ends.count .refused)) :
    c.CountsCalls ends ↔ UInt64.size ∣ ends.count .aborted := by
  rw [CountsCalls, CallEnd.length_eq, UInt64.ofNat_add, UInt64.ofNat_add,
    UInt64.ofNat_add, ← hran, ← hrefused, eq_add_ofNat_iff, eq_add_ofNat_iff, and_self_iff]

end Counters

namespace Floor

/-- In every run the counters say how many reverse calls ran and how many were refused, in words of
64 bits, and so they account for all that ended just when none was aborted, up to multiples of what
a word can count. -/
theorem run_counts_calls {s : Settings} {x : Exchange} (hx : Exchange.create s = .ok x)
    (thread : Option String) (ms : List (Move α ε)) :
    let ends := callEnds thread ms (start x)
    let c := (run thread ms (start x)).exchange.counters
    c.callbacksInvoked = UInt64.ofNat (ends.count .ran) ∧
      c.callbacksFailed = UInt64.ofNat (ends.count .refused) ∧
      (c.CountsCalls ends ↔ UInt64.size ∣ ends.count .aborted) := by
  intro ends c
  have hcount (e : Counters.Event) :
      c.count e = UInt64.ofNat ((recorded thread ms (start x)).count e) := by
    obtain ⟨-, rfl⟩ := Exchange.create_eq hx
    refine (count_run thread ms _ e).trans ?_
    -- Every counter starts at zero.
    cases e <;> exact UInt64.zero_add _
  have hran : c.callbacksInvoked = UInt64.ofNat (ends.count .ran) := by
    rw [← count_recorded fun f m => f.recorded_ran thread m]
    exact hcount .callbackInvoked
  have hrefused : c.callbacksFailed = UInt64.ofNat (ends.count .refused) := by
    rw [← count_recorded fun f m => f.recorded_refused thread m]
    exact hcount .callbackFailed
  exact ⟨hran, hrefused, Counters.countsCalls_iff hran hrefused⟩

/-- A callback is called and returns, and is called again with an argument that it does not take. -/
theorem run_counts_calls_of_each_kind : ∃ x, Exchange.create .standard = .ok x ∧
    let ms : List (Move Unit Unit) :=
      [.step (.act (.register .nullary "f" [])) rfl, .beginCallback (.list [.callback ⟨1⟩]),
        .beginCallback (.list [.callback ⟨1⟩, .null]), .finish 0 (.ok (.success []))]
    let c := (run none ms (start x)).exchange.counters
    callEnds none ms (start x) = [.refused, .ran] ∧ c.CountsCalls [.refused, .ran] ∧
      c.callbacksInvoked = 1 ∧ c.callbacksFailed = 1 := by
  obtain ⟨x, hx⟩ : ∃ x, Exchange.create .standard = .ok x := ⟨_, rfl⟩
  refine ⟨x, hx, ?_⟩
  intro ms c
  have hends : callEnds none ms (start x) = [.refused, .ran] := by
    cases hx
    rfl
  have hcounts := run_counts_calls hx none ms
  rw [hends] at hcounts
  exact ⟨hends, hcounts.2.2.2 ⟨0, rfl⟩, hcounts.1, hcounts.2.1⟩

/-- A callback is called and aborts. Its call has ended, and is counted neither as run nor as
failed. -/
theorem aborted_call_is_not_counted : ∃ x, Exchange.create .standard = .ok x ∧
    let ms : List (Move Unit Unit) :=
      [.step (.act (.register .nullary "f" [.panic (.text "boom")])) rfl,
        .beginCallback (.list [.callback ⟨1⟩]), .finish 0 (.error (.text "boom"))]
    let c := (run none ms (start x)).exchange.counters
    callEnds none ms (start x) = [.aborted] ∧ ¬c.CountsCalls [.aborted] ∧
      c.callbacksInvoked = 0 ∧ c.callbacksFailed = 0 := by
  obtain ⟨x, hx⟩ : ∃ x, Exchange.create .standard = .ok x := ⟨_, rfl⟩
  refine ⟨x, hx, ?_⟩
  intro ms c
  have hfailed : c.callbacksFailed = 0 := by
    cases hx
    rfl
  refine ⟨?_, fun h => ?_, ?_, hfailed⟩
  · cases hx
    rfl
  · rw [Counters.CountsCalls, hfailed] at h
    exact absurd h.2 (by decide)
  · cases hx
    rfl

end Floor

end CallExchange
