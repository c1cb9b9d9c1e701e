import CallExchange.Notifier
import Mathlib.Data.List.DropRight

set_option autoImplicit false

/-!
# Notifiers

What a notifier has counted since the last wait. The counter behind a descriptor stops when it is
full and the other kind goes around, so the count itself is only known as long as it fits in a word;
whether it is zero is all that a wait tells. So long as it fits, both kinds answer alike, whatever
the threads do that notify and wait.
-/

namespace CallExchange.Notifier

variable {n : Notifier} {N : Nat}

theorem notified_snd (n : Notifier) : n.notified.2 =
    if n.fails || n.hasDescriptor && n.count = fullCount then n
    else { n with count := n.count + 1 } := by
  unfold notified
  rw [notify_eq]
  cases n.fails with
  | true => rfl
  | false =>
    cases n.hasDescriptor && decide (n.count = fullCount) <;> rfl

theorem fails_notified (n : Notifier) : n.notified.2.fails = n.fails := by
  rw [notified_snd]
  split <;> rfl

theorem wait_eq_ok {b : Bool} {n' : Notifier} (h : n.wait = .ok (b, n')) :
    b = decide (n.count ≠ 0) ∧ n' = { n with count := 0 } ∧ n.fails = false := by
  rw [wait_eq] at h
  split at h
  · cases h
  · rename_i hok
    cases h
    exact ⟨rfl, rfl, (Bool.not_eq_true _).mp hok⟩

/-- The notifier has been notified `N` times since the last wait. -/
structure Hears (n : Notifier) (N : Nat) : Prop where
  full : n.hasDescriptor = true → n.count.toNat ≤ fullCount.toNat
  descriptor : n.hasDescriptor = true → n.fails = false → (n.count = 0 ↔ N = 0)
  counter : n.hasDescriptor = false → n.count = UInt64.ofNat N

theorem hears_zero (n : Notifier) : Hears { n with count := 0 } 0 :=
  ⟨fun _ => Nat.zero_le _, fun _ _ => iff_of_true rfl rfl, fun _ => rfl⟩

theorem hasDescriptor_notified (n : Notifier) : n.notified.2.hasDescriptor = n.hasDescriptor := by
  rw [notified_snd]
  split <;> rfl

/-- A counter of the operating system that is not full takes one more and does not go around. -/
theorem count_succ (hfull : n.count.toNat ≤ fullCount.toNat) (hne : n.count ≠ fullCount) :
    (n.count + 1).toNat = n.count.toNat + 1 ∧ n.count.toNat < fullCount.toNat := by
  have hlt : n.count.toNat < fullCount.toNat :=
    Nat.lt_of_le_of_ne hfull fun he => hne (UInt64.toNat_inj.1 he)
  refine ⟨?_, hlt⟩
  rw [UInt64.toNat_add]
  exact Nat.mod_eq_of_lt (Nat.lt_trans (Nat.succ_lt_succ hlt) (by decide))

theorem Hears.notified (h : n.Hears N) : n.notified.2.Hears (N + 1) := by
  cases hd : n.hasDescriptor with
  | false =>
    have hok : n.fails = false := by rw [fails, hd, Bool.false_and]
    have hno : n.notified.2.hasDescriptor ≠ true := by rw [hasDescriptor_notified, hd]; simp
    refine ⟨fun hd' => absurd hd' hno, fun hd' => absurd hd' hno, fun _ => ?_⟩
    rw [notified_snd, hok, hd, Bool.false_and, Bool.or_self, if_neg Bool.false_ne_true,
      h.counter hd,
      UInt64.ofNat_add]
    rfl
  | true =>
    have hno : n.notified.2.hasDescriptor ≠ false := by rw [hasDescriptor_notified, hd]; simp
    have hbound := h.full hd
    refine ⟨fun _ => ?_, fun _ hok => ?_, fun hd' => absurd hd' hno⟩ <;>
      rw [notified_snd, hd, Bool.true_and]
    · split
      · exact hbound
      · rename_i hopen
        rw [Bool.or_eq_true, not_or, decide_eq_true_eq] at hopen
        obtain ⟨hsucc, hlt⟩ := count_succ hbound hopen.2
        change (n.count + 1).toNat ≤ _
        rw [hsucc]
        exact hlt
    · rw [fails_notified] at hok
      rw [hok, Bool.false_or]
      split
      · rename_i hfull
        rw [decide_eq_true_eq] at hfull
        rw [hfull]
        exact iff_of_false (by decide) (Nat.succ_ne_zero N)
      · rename_i hopen
        rw [decide_eq_true_eq] at hopen
        refine iff_of_false (fun hzero => ?_) (Nat.succ_ne_zero N)
        have hsucc := (count_succ hbound hopen).1
        rw [show n.count + 1 = 0 from hzero] at hsucc
        cases hsucc

theorem Hears.broken (h : n.Hears N) : n.breakDescriptor.2.Hears N := by
  refine ⟨h.full, fun hd hok => ?_, h.counter⟩
  have hfails : n.breakDescriptor.2.fails = true := by
    change (n.hasDescriptor && (n.hasDescriptor || n.broken)) = true
    rw [show n.hasDescriptor = true from hd]
    rfl
  rw [hfails] at hok
  cases hok

theorem Hears.saturated (h : n.Hears N) : n.saturate.2.Hears (N + n.saturate.1.toNat) := by
  unfold saturate
  cases hd : n.hasDescriptor with
  | false => exact h
  | true =>
    have hfull : fullCount ≠ 0 := by decide
    refine ⟨fun _ => Nat.le_refl _, fun _ _ => iff_of_false hfull (Nat.succ_ne_zero N),
      fun hno => ?_⟩
    exact absurd (hno.symm.trans hd) Bool.false_ne_true

/-- The count is zero exactly when nothing was heard, as long as it has not gone around. -/
theorem Hears.count_eq_zero (h : n.Hears N) (hok : n.fails = false)
    (hroom : n.hasDescriptor = false → N < UInt64.size) : n.count = 0 ↔ N = 0 := by
  cases hd : n.hasDescriptor with
  | true => exact h.descriptor hd hok
  | false =>
    rw [h.counter hd, ← UInt64.toNat_inj, UInt64.toNat_ofNat_of_lt' (hroom hd)]
    rfl

inductive Call where
  | notify
  | wait (t : Span)

def Call.isNotify : Call → Bool
  | .notify => true
  | .wait _ => false

/-- How many notifications there were since the last wait. -/
def unheard (h : List Call) : Nat := (h.rtakeWhile Call.isNotify).length

/-- The calls of a command that comes after those in `h`, in the order in which they take effect: a
wait that still goes on when another thread notifies ends with that. -/
def Command.calls (h : List Call) : Command → List Call
  | .notify => [.notify]
  | .wait t false => [.wait t]
  | .wait t true => if unheard h = 0 && t.patient then [.notify, .wait t] else [.wait t, .notify]

/-- What a command answers after the calls in `h`. A wait tells whether there was a notification
between the wait before it and its own end. -/
def Command.answer (h : List Call) : Command → Answer
  | .notify => .done
  | c => .flag (0 < unheard (h ++ (c.calls h).takeWhile Call.isNotify))

def timeline (h : List Call) : List Command → List Call
  | [] => []
  | c :: cs => c.calls h ++ timeline (h ++ c.calls h) cs

def expected (h : List Call) : List Command → List Answer
  | [] => []
  | c :: cs => c.answer h :: expected (h ++ c.calls h) cs

def answers (n : Notifier) : List Command → List Answer
  | [] => []
  | c :: cs => (n.apply c).1 :: answers (n.apply c).2 cs

/-- After the calls in `h`, each of the waits among `l` finds fewer notifications than a word can
count. -/
def FewUnheard (h l : List Call) : Prop :=
  ∀ before t after, l = before ++ .wait t :: after → unheard (h ++ before) < UInt64.size

section Calls

variable {h l : List Call} {t : Span} {c : Command} {cs : List Command}

theorem unheard_notify (h : List Call) : unheard (h ++ [.notify]) = unheard h + 1 := by
  rw [unheard, List.rtakeWhile_concat_pos _ _ _ rfl, List.length_append]
  rfl

theorem unheard_wait (h : List Call) (t : Span) : unheard (h ++ [.wait t]) = 0 := by
  rw [unheard, List.rtakeWhile_concat_neg _ _ _ Bool.false_ne_true]
  rfl

theorem unheard_pos_iff : 0 < unheard h ↔
    ∃ before after, h = before ++ .notify :: after ∧ ∀ c ∈ after, c.isNotify = true := by
  induction h using List.reverseRecOn with
  | nil => simp [unheard]
  | append_singleton h c ih =>
    cases c with
    | notify =>
      rw [unheard_notify]
      exact iff_of_true (Nat.succ_pos _) ⟨h, [], rfl, List.forall_mem_nil _⟩
    | wait t =>
      rw [unheard_wait]
      refine iff_of_false (Nat.lt_irrefl 0) ?_
      rintro ⟨before, after, heq, hquiet⟩
      have hmem : Call.wait t ∈ Call.notify :: after := by
        have hlast := congrArg List.getLast? heq
        rw [List.getLast?_concat, List.getLast?_append_cons] at hlast
        exact List.mem_of_getLast? hlast.symm
      rcases List.mem_cons.1 hmem with he | he
      · cases he
      · exact absurd (hquiet _ he) Bool.false_ne_true

theorem FewUnheard.of_append {l' : List Call} (hfew : FewUnheard h (l ++ l')) :
    FewUnheard h l ∧ FewUnheard (h ++ l) l' := by
  refine ⟨fun before t after he => ?_, fun before t after he => ?_⟩
  · refine hfew before t (after ++ l') ?_
    rw [he, List.append_assoc]
    rfl
  · rw [List.append_assoc]
    refine hfew (l ++ before) t after ?_
    rw [he, List.append_assoc]

structure Follows (h : List Call) (n : Notifier) : Prop where
  ok : n.fails = false
  hears : n.Hears (unheard h)

theorem follows_nil (k : NotifierKind) : Follows [] (ofKind k) :=
  ⟨Bool.and_false _, hears_zero (ofKind k)⟩

theorem Follows.notified (hf : Follows h n) :
    n.notified.1 = .done ∧ Follows (h ++ [.notify]) n.notified.2 := by
  refine ⟨?_, ⟨by rw [fails_notified, hf.ok], by rw [unheard_notify]; exact hf.hears.notified⟩⟩
  unfold Notifier.notified
  rw [notify_eq, hf.ok]
  cases n.hasDescriptor && decide (n.count = fullCount) <;> rfl

theorem Follows.waited (hf : Follows h n) (hroom : unheard h < UInt64.size) (t : Span) :
    n.waited.1 = .flag (0 < unheard h) ∧ Follows (h ++ [.wait t]) n.waited.2 := by
  have hwait : n.waited = (.flag (n.count ≠ 0), { n with count := 0 }) := by
    unfold Notifier.waited
    rw [wait_eq, hf.ok]
    rfl
  have hcount : decide (n.count ≠ 0) = decide (0 < unheard h) := by
    rw [decide_eq_decide, ne_eq, hf.hears.count_eq_zero hf.ok fun _ => hroom, Nat.pos_iff_ne_zero]
  rw [hwait, hcount]
  refine ⟨rfl, hf.ok, ?_⟩
  rw [unheard_wait]
  exact n.hears_zero

theorem Follows.isIdle (hf : Follows h n) (hroom : unheard h < UInt64.size) :
    n.isIdle = decide (unheard h = 0) := by
  rw [isIdle_eq, hf.ok, Bool.not_false, Bool.true_and, decide_eq_decide]
  exact hf.hears.count_eq_zero hf.ok fun _ => hroom

theorem Follows.apply (hf : Follows h n) (hfew : FewUnheard h (c.calls h)) :
    (n.apply c).1 = c.answer h ∧ Follows (h ++ c.calls h) (n.apply c).2 := by
  cases c with
  | notify => exact hf.notified
  | wait t notified =>
    cases notified with
    | false =>
      have hanswer : Command.answer h (.wait t false) = .flag (0 < unheard (h ++ [])) := rfl
      rw [hanswer, List.append_nil]
      exact hf.waited (by simpa using hfew [] t [] rfl) t
    | true =>
      rw [Command.calls] at hfew
      by_cases hopen : (decide (unheard h = 0) && t.patient) = true
      · -- The wait goes on until the other thread notifies.
        rw [if_pos hopen] at hfew
        have hroom : unheard h < UInt64.size := by
          rw [Bool.and_eq_true, decide_eq_true_iff] at hopen
          rw [hopen.1]
          decide
        have hanswer : Command.answer h (.wait t true) = .flag (0 < unheard (h ++ [.notify])) := by
          rw [Command.answer, Command.calls, if_pos hopen]
          · rfl
          · exact nofun
        rw [Notifier.apply, hf.isIdle hroom, if_pos hopen, hanswer, Command.calls, if_pos hopen,
          List.append_cons h .notify [.wait t]]
        exact hf.notified.2.waited (hfew [.notify] t [] rfl) t
      · -- The wait is over before the other thread notifies.
        rw [if_neg hopen] at hfew
        have hroom : unheard h < UInt64.size := by simpa using hfew [] t [.notify] rfl
        have hanswer : Command.answer h (.wait t true) = .flag (0 < unheard (h ++ [])) := by
          rw [Command.answer, Command.calls, if_neg hopen]
          · rfl
          · exact nofun
        obtain ⟨hflag, hnext⟩ := hf.waited hroom t
        rw [Notifier.apply, hf.isIdle hroom, if_neg hopen, hanswer, Command.calls, if_neg hopen,
          List.append_cons h (.wait t) [.notify], List.append_nil]
        exact ⟨hflag, hnext.notified.2⟩

theorem Follows.answers (hf : Follows h n) (hfew : FewUnheard h (timeline h cs)) :
    n.answers cs = expected h cs := by
  induction cs generalizing h n with
  | nil => rfl
  | cons c cs ih =>
    obtain ⟨hcall, hrest⟩ := hfew.of_append
    obtain ⟨hanswer, hnext⟩ := hf.apply hcall
    rw [Notifier.answers, expected, hanswer, ih hnext hrest]

theorem unheard_le_countP (h : List Call) : unheard h ≤ h.countP Call.isNotify := by
  have hall : (h.rtakeWhile Call.isNotify).countP Call.isNotify = unheard h :=
    List.countP_eq_length.2 fun _ hc => List.mem_rtakeWhile_imp hc
  rw [← hall]
  exact (List.rtakeWhile_suffix _ _).sublist.countP_le

theorem fewUnheard_of_countP (hl : (h ++ l).countP Call.isNotify < UInt64.size) :
    FewUnheard h l := by
  rintro before t after rfl
  refine Nat.lt_of_le_of_lt (unheard_le_countP _) (Nat.lt_of_le_of_lt ?_ hl)
  rw [← List.append_assoc]
  exact (List.sublist_append_left _ _).countP_le

theorem unheard_replicate (N : Nat) : unheard (List.replicate N .notify) = N := by
  induction N with
  | zero => rfl
  | succ N ih => rw [List.replicate_succ', unheard_notify, ih]

theorem timeline_replicate (h : List Call) (N : Nat) (cs : List Command) :
    timeline h (List.replicate N .notify ++ cs) =
      List.replicate N .notify ++ timeline (h ++ List.replicate N .notify) cs := by
  induction N generalizing h with
  | zero => exact congrArg (timeline · cs) (List.append_nil h).symm
  | succ N ih =>
    rw [List.replicate_succ, List.replicate_succ, List.append_cons h]
    exact congrArg (Call.notify :: ·) (ih (h ++ [Call.notify]))

theorem expected_replicate (h : List Call) (N : Nat) (cs : List Command) :
    expected h (List.replicate N .notify ++ cs) =
      List.replicate N .done ++ expected (h ++ List.replicate N .notify) cs := by
  induction N generalizing h with
  | zero => exact congrArg (expected · cs) (List.append_nil h).symm
  | succ N ih =>
    rw [List.replicate_succ, List.replicate_succ, List.replicate_succ, List.append_cons h]
    exact congrArg (Answer.done :: ·) (ih (h ++ [Call.notify]))

end Calls

/-- Both kinds give the same answers, as long as no wait finds more notifications than a word can
count: a notification never fails, and a wait tells whether there was a notification since the wait
before, and takes them all. That the counter behind a descriptor stops when it is full is not to be
seen. -/
theorem kinds_interchangeable (cs : List Command) (hfew : FewUnheard [] (timeline [] cs)) :
    (∀ k, (ofKind k).answers cs = expected [] cs) ∧
      (ofKind .condvar).answers cs = (ofKind .eventFd).answers cs ∧
      ∀ h, 0 < unheard h ↔
        ∃ before after, h = before ++ .notify :: after ∧ ∀ c ∈ after, c.isNotify = true := by
  have hall : ∀ k, (ofKind k).answers cs = expected [] cs := fun k =>
    (follows_nil k).answers hfew
  exact ⟨hall, (hall .condvar).trans (hall .eventFd).symm, fun h => unheard_pos_iff⟩

/-- As many notifications as a word can count, which is one more than fills the counter behind a
descriptor, then two waits. -/
theorem kinds_interchangeable_full : ∃ N, N + 1 = UInt64.size ∧
    let cs : List Command := List.replicate N .notify ++ [.wait .zero false, .wait .zero false]
    FewUnheard [] (timeline [] cs) ∧
      ∀ k, (ofKind k).answers cs = List.replicate N .done ++ [.flag true, .flag false] := by
  obtain ⟨N, hN⟩ : ∃ N, N + 1 = UInt64.size := ⟨UInt64.size - 1, rfl⟩
  refine ⟨N, hN, ?_⟩
  intro cs
  have hpos : 0 < N := by
    rw [UInt64.size] at hN
    omega
  have hfew : FewUnheard [] (timeline [] cs) := by
    refine fewUnheard_of_countP ?_
    rw [timeline_replicate, List.nil_append, List.countP_append, List.countP_replicate, ← hN]
    exact Nat.lt_succ_self N
  obtain ⟨hanswers, -, -⟩ := kinds_interchangeable cs hfew
  refine ⟨hfew, fun k => ?_⟩
  rw [hanswers k, expected_replicate, List.nil_append]
  have hheard : unheard (List.replicate N .notify ++ []) = N := by
    rw [List.append_nil, unheard_replicate]
  have hnone : unheard (List.replicate N .notify ++ [.wait .zero] ++ []) = 0 := by
    rw [List.append_nil, unheard_wait]
  have htwo : expected (List.replicate N .notify) [.wait .zero false, .wait .zero false] =
      [.flag (0 < unheard (List.replicate N .notify ++ [])),
        .flag (0 < unheard (List.replicate N .notify ++ [.wait .zero] ++ []))] := rfl
  rw [htwo, hheard, hnone, decide_eq_true hpos]
  rfl

end CallExchange.Notifier
