import CallExchange.Proofs.Exchange.Frames

set_option autoImplicit false

/-!
# Sequences of operations

What one operation keeps, any number of them keeps, as long as there are numbers left for the ports
that they open.
-/

namespace CallExchange.Exchange

/-- `ops` take one exchange to another, up to what the core leaves out. -/
inductive Runs : List Op → Exchange → Exchange → Prop where
  | quiet {x y : Exchange} (h : y.core = x.core) : Runs [] x y
  | exec {x y z : Exchange} {o : Op} {ops : List Op} (h : y.core = x.core)
      (hr : Runs ops (o.exec y) z) : Runs (o :: ops) x z

/-- Whether there are numbers for what is opened, and what is closed from its managed end is not
the port for reverse calls. -/
structure Fit (ops : List Op) (x : Exchange) : Prop where
  room : x.nextPort.raw.toInt + ops.countP Op.opens < PortId.supply
  closing : ∀ b, Op.closeBroadcast b ∈ ops → b.id ≠ reversePort

variable {x y z : Exchange} {p : PortId} {k : Ticket} {o : Op} {ops : List Op}

theorem OpenedSingle.nextPort_le (hr : x.HasRoom) {a : Except Fault (PortId × Ticket)}
    (ho : OpenedSingle x a y) : y.nextPort.raw.toInt ≤ x.nextPort.raw.toInt + 1 := by
  have hnext : x.nextPort.next.raw.toInt ≤ x.nextPort.raw.toInt + 1 :=
    Int.le_of_eq (PortId.toInt_next hr)
  cases ho with
  | closed hx => omega
  | refused f hx hreg => exact hnext
  | opened k r hx hreg => exact hnext

theorem OpenedBroadcast.nextPort_le (hr : x.HasRoom) {task : String} {a : Except Fault Broadcast}
    (ho : OpenedBroadcast x task a y) : y.nextPort.raw.toInt ≤ x.nextPort.raw.toInt + 1 := by
  cases ho with
  | closed hx => omega
  | opened name y hx hn hy =>
    have hnext : y.nextPort = x.nextPort.next := congrArg Core.nextPort hy
    exact Int.le_of_eq (hnext ▸ PortId.toInt_next hr)

theorem Posted.nextPort_eq {v : Value} {d : Delivery} (hp : Posted x p v d y) :
    y.nextPort = x.nextPort := by
  cases hp with
  | completed w r hx hr => exact (nextPort_congr (core_ring _)).trans rfl
  | queued hx ht hn hb => exact (nextPort_congr (core_ring _)).trans rfl
  | dropped why hd => exact (nextPort_congr (core_drop x p why)).trans rfl

theorem Op.nextPort_exec (h : x.Consistent) (o : Op) (ho : o.Lawful x) :
    (o.exec x).nextPort.raw.toInt ≤ x.nextPort.raw.toInt + o.opens.toNat := by
  have hsame : ∀ y : Exchange, y.nextPort = x.nextPort →
      y.nextPort.raw.toInt ≤ x.nextPort.raw.toInt + (0 : Nat) := by
    intro y hy
    rw [hy]
    omega
  cases o with
  | openSingle => exact x.openSingle_opened.nextPort_le ho
  | openBroadcast task => exact (x.openBroadcast_opened task).nextPort_le ho
  | post p v => exact hsame _ (x.post_posted p v).nextPort_eq
  | closePort p =>
    apply hsame
    by_cases hp : p = reversePort
    · rw [hp]
      rfl
    · exact (retired_closePort h hp).nextPort
  | closeBroadcast b => exact hsame _ (Broadcast.retired_close h b ho).1.nextPort
  | shutdown => exact hsame _ (down_shutdown h).nextPort
  | release =>
    apply hsame
    change x.release.nextPort = _
    unfold Exchange.release
    split
    · rfl
    · exact (down_shutdown h).nextPort
    · rfl
  | receive | read | hold => exact hsame _ rfl

theorem Op.owners_left (h : x.Consistent) (ho : o.Lawful x) {n : Nat}
    (hn : (o :: ops).countP Op.isRelease + n ≤ x.owners) :
    (o.isRelease = true → n + 1 ≤ x.owners) ∧ ops.countP Op.isRelease + n ≤ (o.exec x).owners := by
  rw [List.countP_cons] at hn
  have hrel : o.isRelease = true → n + 1 ≤ x.owners := by
    intro hrel
    rw [if_pos hrel] at hn
    omega
  have hexec := o.owners_exec h ho fun hrel' => by
    have := hrel hrel'
    omega
  refine ⟨hrel, ?_⟩
  cases hrel' : o.isRelease <;> rw [hrel'] at hexec hn <;> simp at hexec hn <;> omega

namespace Fit

theorem lawful (h : Fit (o :: ops) x) (hy : y.core = x.core) : o.Lawful y := by
  have hroom := h.room
  have hroom' : o.opens = true → y.HasRoom := by
    intro ho
    rw [HasRoom, nextPort_congr hy]
    rw [List.countP_cons_of_pos ho] at hroom
    omega
  cases o with
  | openSingle => exact hroom' rfl
  | openBroadcast task => exact hroom' rfl
  | closeBroadcast b => exact h.closing b (List.mem_cons_self ..)
  | _ => trivial

theorem tail (h : Fit (o :: ops) x) (hx : x.Consistent) (hy : y.core = x.core) :
    Fit ops (o.exec y) := by
  have hnext := o.nextPort_exec (hx.of_core hy) (h.lawful hy)
  have hroom := h.room
  refine ⟨?_, fun b hb => h.closing b (List.mem_cons_of_mem _ hb)⟩
  rw [nextPort_congr hy] at hnext
  rw [List.countP_cons] at hroom
  cases ho : o.opens with
  | true =>
    rw [ho] at hnext hroom
    simp at hnext hroom
    omega
  | false =>
    rw [ho] at hnext hroom
    simp at hnext hroom
    omega

end Fit

namespace Runs

theorem of_core_left (h : y.core = x.core) (hr : Runs ops y z) : Runs ops x z := by
  cases hr with
  | quiet h' => exact .quiet (h'.trans h)
  | exec h' hr => exact .exec (h'.trans h) hr

theorem single (o : Op) (h : y.core = (o.exec x).core) : Runs [o] x y := .exec rfl (.quiet h)

theorem append {ops' : List Op} (h : Runs ops x y) (h' : Runs ops' y z) :
    Runs (ops ++ ops') x z := by
  induction h with
  | quiet h => exact h'.of_core_left h
  | exec h _ ih => exact .exec h (ih h')

theorem consistent (hr : Runs ops x y) (h : x.Consistent) (hf : Fit ops x) : y.Consistent := by
  induction hr with
  | quiet hc => exact h.of_core hc
  | exec hc _ ih =>
    exact ih (Op.consistent (h.of_core hc) _ (hf.lawful hc)) (hf.tail h hc)

theorem grows (hr : Runs ops x y) (h : x.Consistent) (hf : Fit ops x) : Grows x y := by
  induction hr with
  | quiet hc => exact .of_core hc
  | exec hc _ ih =>
    have hy := h.of_core hc
    have hl := hf.lawful hc
    exact (Grows.of_core hc).trans
      ((Op.grows hy _ hl).trans (ih (Op.consistent hy _ hl) (hf.tail h hc)))

theorem nextPort_le (hr : Runs ops x y) (h : x.Consistent) (hf : Fit ops x) :
    y.nextPort.raw.toInt ≤ x.nextPort.raw.toInt + ops.countP Op.opens := by
  induction hr with
  | quiet hc =>
    rw [nextPort_congr hc]
    omega
  | @exec x y z o ops hc _ ih =>
    have hy := h.of_core hc
    have hl := hf.lawful hc
    have hhead := o.nextPort_exec hy hl
    have htail := ih (o.consistent hy hl) (hf.tail h hc)
    rw [nextPort_congr hc] at hhead
    rw [List.countP_cons]
    cases ho : o.opens <;> rw [ho] at hhead <;> simp at hhead ⊢ <;> omega

/-- As long as the last owner does not let go, a port sees nothing of operations on others. -/
theorem samePort (hr : Runs ops x y) (h : x.Consistent) (hf : Fit ops x) (hp : x.Issued p)
    (hs : ∀ o ∈ ops, o.SparesPort p) (ho : ops.countP Op.isRelease < x.owners) :
    SamePort p x y := by
  induction hr with
  | quiet hc => exact .of_core hc
  | @exec x y z o ops hc _ ih =>
    have hy := h.of_core hc
    have hl := hf.lawful hc
    have hpy : y.Issued p := (Grows.of_core hc).issued p hp
    rw [← owners_congr hc] at ho
    obtain ⟨hrel, hleft⟩ := Op.owners_left hy hl (n := 1) ho
    have hhead := o.samePort hy hpy hl (hs o (List.mem_cons_self ..)) hrel
    have htail := ih (o.consistent hy hl) (hf.tail h hc) ((o.grows hy hl).issued p hpy)
      (fun o' ho' => hs o' (List.mem_cons_of_mem _ ho')) hleft
    exact (SamePort.of_core hc).trans (hhead.trans htail)

theorem slot_eq (hr : Runs ops x y) (h : x.Consistent) (hf : Fit ops x) (ht : Tied p k x)
    (hs : ∀ o ∈ ops, o.SparesPort p) (hk : ∀ o ∈ ops, o.SparesSlot k)
    (ho : ops.countP Op.isRelease < x.owners) : y.slot k = x.slot k := by
  induction hr with
  | quiet hc => exact slot_congr hc k
  | @exec x y z o ops hc _ ih =>
    have hy := h.of_core hc
    have hl := hf.lawful hc
    have hty : Tied p k y := ht.grows (.of_core hc)
    rw [← owners_congr hc] at ho
    obtain ⟨hrel, hleft⟩ := Op.owners_left hy hl (n := 1) ho
    have hhead := o.slot_exec hy hty hl (hs o (List.mem_cons_self ..)) (hk o (List.mem_cons_self ..))
      hrel
    have htail := ih (o.consistent hy hl) (hf.tail h hc) (hty.grows (o.grows hy hl))
      (fun o' ho' => hs o' (List.mem_cons_of_mem _ ho'))
      (fun o' ho' => hk o' (List.mem_cons_of_mem _ ho')) hleft
    rw [htail, hhead, slot_congr hc]

theorem owners_eq (hr : Runs ops x y) (h : x.Consistent) (hf : Fit ops x)
    (ho : ops.countP Op.isRelease ≤ x.owners) :
    y.owners + ops.countP Op.isRelease = x.owners + ops.countP Op.isHold := by
  induction hr with
  | quiet hc =>
    rw [owners_congr hc]
    rfl
  | @exec x y z o ops hc _ ih =>
    have hy := h.of_core hc
    have hl := hf.lawful hc
    rw [← owners_congr hc] at ho
    obtain ⟨hrel, hleft⟩ := Op.owners_left hy hl (n := 0) ho
    have hhead := o.owners_exec hy hl hrel
    have htail := ih (o.consistent hy hl) (hf.tail h hc) hleft
    rw [← owners_congr hc, List.countP_cons, List.countP_cons]
    cases hrel' : o.isRelease <;> cases hhold : o.isHold <;> rw [hrel', hhold] at hhead <;>
      simp at hhead ⊢ <;> omega

theorem tally_eq (hr : Runs ops x y) (h : x.Consistent) (hf : Fit ops x) :
    y.tally = x.tally + UInt64.ofNat (ops.countP Op.isPost) := by
  induction hr with
  | quiet hc =>
    rw [tally_congr hc]
    exact (UInt64.add_zero _).symm
  | @exec x y z o ops hc _ ih =>
    have hy := h.of_core hc
    have hl := hf.lawful hc
    have htail := ih (o.consistent hy hl) (hf.tail h hc)
    rw [List.countP_cons, htail]
    cases ho : o.isPost with
    | false =>
      rw [o.tally_exec hy hl ho, tally_congr hc]
      rfl
    | true =>
      cases o with
      | post p v =>
        change (y.post p v).2.tally + _ = _
        rw [(post_posted _ _ _).tally_eq, tally_congr hc, if_pos rfl, UInt64.ofNat_add]
        ac_rfl
      | _ => cases ho

end Runs

end CallExchange.Exchange
