import CallExchange.Proofs.Commuting
import CallExchange.Proofs.StaleHandles

set_option autoImplicit false

/-!
# How dropped posts are reported

A post that is dropped is reported in one of two ways, and which of them is decided by the next
number: one below it counts as the number of a port. In every run these are the number for reverse
calls, the numbers that were given out, and those that are wasted on openings refused because too
many calls are pending. A wasted number was never the number of a port, and still a post to it is
reported as one that came too late.
-/

namespace CallExchange

open Exchange (Op Runs Fit)

variable {α ε : Type}

namespace Exchange

variable {x y : Exchange} {e : Fault} {p : PortId} {ops : List Op}

/-- An opening is refused before a number is taken, or because too many calls are pending, and then
the number is gone. -/
theorem OpenedSingle.error (h : x.Consistent) (ho : OpenedSingle x (.error e) y) :
    (e = .closed ∧ y = x) ∨
      ∃ limit, e = .registryFull limit ∧ y = { x with nextPort := x.nextPort.next } := by
  have hnew := ho.ne_duplicate h
  cases ho with
  | closed hx => exact .inl ⟨rfl, rfl⟩
  | refused e hx hr =>
    rw [Pending.register] at hr
    split at hr
    · cases hr
      exact .inr ⟨_, rfl, rfl⟩
    · split at hr
      · cases hr
        exact absurd rfl (hnew _)
      · cases hr

theorem OpenedBroadcast.error {task : String} (ho : OpenedBroadcast x task (.error e) y) :
    y = x := by
  cases ho
  rfl

theorem issued_next_iff (h : x.Consistent) (hr : x.HasRoom) (hn : y.nextPort = x.nextPort.next) :
    y.Issued p ↔ x.Issued p ∨ p = x.nextPort := by
  refine ⟨fun ⟨hpos, hlt⟩ => ?_, ?_⟩
  · rw [hn, PortId.toInt_next hr] at hlt
    rcases Int.lt_or_eq_of_le (Int.le_of_lt_add_one hlt) with hlt | heq
    · exact .inl ⟨hpos, hlt⟩
    · exact .inr (congrArg PortId.mk (Int64.toInt_inj.1 heq))
  · rintro (hp | rfl)
    · exact issued_next hr hn hp
    · exact issued_new h hr hn

theorem Op.settings_exec (h : x.Consistent) (o : Op) (ho : o.Lawful x) :
    (o.exec x).settings = x.settings := by
  cases o with
  | openSingle =>
    have hopen := x.openSingle_opened
    change x.openSingle.2.settings = _
    generalize x.openSingle.1 = a, x.openSingle.2 = y at hopen
    cases hopen <;> rfl
  | openBroadcast task =>
    change (x.openBroadcast task).2.settings = _
    unfold Exchange.openBroadcast
    split <;> rfl
  | post p v =>
    change (x.post p v).2.settings = _
    rw [post_eq h]
    rfl
  | closePort p =>
    by_cases hp : p = reversePort
    · rw [hp]
      rfl
    · exact (retired_closePort h hp).settings
  | closeBroadcast b => exact (Broadcast.retired_close h b ho).1.settings
  | shutdown => exact (down_shutdown h).settings
  | release =>
    change x.release.settings = _
    unfold Exchange.release
    split
    · rfl
    · exact (down_shutdown h).settings
    · rfl
  | receive | read | hold => rfl

theorem Runs.settings_eq (hr : Runs ops x y) (h : x.Consistent) (hf : Fit ops x) :
    y.settings = x.settings :=
  hr.preserves (P := fun z => z.settings = x.settings) h hf
    (fun hc ha => (congrArg Core.settings hc).trans ha)
    (fun o _ ha hl _ hpa => (o.settings_exec ha hl).trans hpa) rfl

end Exchange

namespace Move

/-- Whether a move was an opening that was refused because too many calls are pending. -/
def isTooMany : Move α ε × Answer α ε → Bool
  | (.beginAsync _ _, .reply (.fault (.registryFull _))) => true
  | (.step .openSingle _, .reply (.fault (.registryFull _))) => true
  | _ => false

theorem isTooMany_of_opensPort {m : Move α ε} (hm : m.opensPort = false) (a : Answer α ε) :
    isTooMany (m, a) = false := by
  unfold isTooMany
  split
  case h_3 => rfl
  all_goals
    rename_i he
    cases he
    cases hm

end Move

namespace Floor

variable {f : Floor α ε} {m : Move α ε} {ms : List (Move α ε)} {t : Turn α ε} {n : Nat} {e : Fault}
  {p : PortId} {thread : Option String}

inductive Takes (f : Floor α ε) (m : Move α ε) (t : Turn α ε) : Prop where
  | nothing (hissued : ∀ p, t.2.exchange.Issued p ↔ f.exchange.Issued p)
      (hg : Move.given? (m, t.1) = none) (hw : Move.isTooMany (m, t.1) = false)
  | given (hm : m.opensPort = true) (hnext : t.2.exchange.nextPort = f.exchange.nextPort.next)
      (hg : Move.given? (m, t.1) = some f.exchange.nextPort) (hw : Move.isTooMany (m, t.1) = false)
  | wasted (hm : m.opensPort = true) (hnext : t.2.exchange.nextPort = f.exchange.nextPort.next)
      (hg : Move.given? (m, t.1) = none) (hw : Move.isTooMany (m, t.1) = true)

namespace Takes

theorem of_same (ht : t.2 = f) (hg : Move.given? (m, t.1) = none)
    (hw : Move.isTooMany (m, t.1) = false) : Takes f m t :=
  .nothing (fun p => by rw [ht]) hg hw

theorem of_refused (hx : f.exchange.Consistent) (hm : m.opensPort = true)
    (he : f.exchange.openSingle.1 = .error e) (ht : t = (.reply (.fault e), f.put f.exchange.openSingle.2))
    (hg : Move.given? (m, .reply (.fault e)) = none)
    (hclosed : Move.isTooMany (m, .reply (.fault .closed)) = false)
    (hfull : ∀ limit, Move.isTooMany (m, .reply (.fault (.registryFull limit))) = true) :
    Takes f m t := by
  subst ht
  have hopen := f.exchange.openSingle_opened
  rw [he] at hopen
  rcases hopen.error hx with ⟨rfl, hsame⟩ | ⟨limit, rfl, hnext⟩
  · exact .nothing (fun p => by rw [hsame]; rfl) hg hclosed
  · exact .wasted hm (congrArg Exchange.nextPort hnext) hg (hfull limit)

theorem of_given (hm : m.opensPort = true) (hp : p = f.exchange.nextPort)
    (hnext : t.2.exchange.nextPort = f.exchange.nextPort.next)
    (hg : Move.given? (m, t.1) = some p) (hw : Move.isTooMany (m, t.1) = false) : Takes f m t :=
  .given hm hnext (hg.trans (congrArg some hp)) hw

end Takes

theorem takes_beginAsync (hx : f.exchange.Consistent) (task : String) (codec : Codec α ε) :
    Takes f (.beginAsync task codec) (f.apply thread (.beginAsync task codec)) := by
  change Takes f _ (f.begin _ _ _)
  unfold Floor.begin
  cases hd : f.session.dispatcher with
  | false => exact .of_same rfl rfl rfl
  | true =>
    rw [if_pos rfl]
    cases ho : f.exchange.openSingle.1 with
    | error e =>
      rw [Exchange.beginAsync_error task ho]
      exact .of_refused hx rfl ho rfl rfl rfl fun _ => rfl
    | ok a =>
      obtain ⟨y, hcore, hbegin⟩ := Exchange.beginAsync_ok task ho
      obtain ⟨hp, -, -, r, -, -, hopened⟩ := Exchange.openSingle_ok ho
      rw [hbegin]
      refine .of_given rfl hp ?_ rfl rfl
      exact (Exchange.nextPort_congr hcore).trans (congrArg Exchange.nextPort hopened)

theorem takes_openSingle (hx : f.exchange.Consistent)
    (h : (Step.openSingle : Step α ε).isElementary = true) :
    Takes f (.step .openSingle h) (f.apply thread (.step .openSingle h)) := by
  change Takes f _ (f.turn (f.session.withDispatcher _))
  unfold Session.withDispatcher
  cases hd : f.session.dispatcher with
  | false => exact .of_same rfl rfl rfl
  | true =>
    rw [if_pos rfl, session_exchange]
    dsimp only
    cases ho : f.exchange.openSingle.1 with
    | error e => exact .of_refused hx rfl ho rfl rfl rfl fun _ => rfl
    | ok a =>
      obtain ⟨hp, -, -, r, -, -, hopened⟩ := Exchange.openSingle_ok ho
      exact .of_given rfl hp (congrArg Exchange.nextPort hopened) rfl rfl

theorem takes_beginStream (task : String) (codec : Codec α ε) :
    Takes f (.beginStream task codec) (f.apply thread (.beginStream task codec)) := by
  change Takes f _ (f.begin _ _ _)
  unfold Floor.begin
  cases hd : f.session.dispatcher with
  | false => exact .of_same rfl rfl rfl
  | true =>
    rw [if_pos rfl]
    cases ho : (f.exchange.openBroadcast task).1 with
    | error e =>
      have hopen := f.exchange.openBroadcast_opened task
      rw [ho] at hopen
      rw [Exchange.beginStream_error task ho, hopen.error]
      exact .of_same rfl rfl rfl
    | ok b =>
      obtain ⟨y, hcore, hbegin⟩ := Exchange.beginStream_ok task ho
      obtain ⟨hp, -, hopened⟩ := Exchange.openBroadcast_ok ho
      rw [hbegin]
      refine .of_given rfl hp ?_ rfl rfl
      exact (Exchange.nextPort_congr hcore).trans (congrArg Exchange.Core.nextPort hopened)

theorem takes_openBroadcast (task : String)
    (h : (Step.openBroadcast task : Step α ε).isElementary = true) :
    Takes f (.step (.openBroadcast task) h) (f.apply thread (.step (.openBroadcast task) h)) := by
  change Takes f _ (f.turn (f.session.withDispatcher _))
  unfold Session.withDispatcher
  cases hd : f.session.dispatcher with
  | false => exact .of_same rfl rfl rfl
  | true =>
    rw [if_pos rfl, session_exchange]
    dsimp only
    cases ho : (f.exchange.openBroadcast task).1 with
    | error e =>
      have hopen := f.exchange.openBroadcast_opened task
      rw [ho] at hopen
      rw [hopen.error]
      exact .of_same rfl rfl rfl
    | ok b =>
      obtain ⟨hp, -, hopened⟩ := Exchange.openBroadcast_ok ho
      exact .of_given rfl hp (congrArg Exchange.Core.nextPort hopened) rfl rfl

theorem Sound.takes (hs : f.Sound (m.opensPort.toNat + n)) (thread : Option String) :
    Takes f m (f.apply thread m) := by
  cases hm : m.opensPort with
  | false =>
    obtain ⟨ops, he⟩ := hs.effect thread m
    have hold := fun p : PortId =>
      he.runs.issued_old (p := p) hs.consistent (he.fit hs) (he.opens_none hm)
    exact .nothing (fun p => ⟨hold p, (grows_apply hs thread).issued p⟩)
      (Move.given?_of_opensPort hm _) (Move.isTooMany_of_opensPort hm _)
  | true =>
    unfold Move.opensPort at hm
    split at hm
    · exact takes_beginAsync hs.consistent _ _
    · exact takes_beginStream _ _
    · exact takes_openSingle hs.consistent _
    · exact takes_openBroadcast _ _
    · cases hm

/-- The number that a move wastes on an opening that is refused. -/
def wasted? (thread : Option String) (f : Floor α ε) (m : Move α ε) : Option PortId :=
  if Move.isTooMany (m, (f.apply thread m).1) then some f.exchange.nextPort else none

def wasted (thread : Option String) : List (Move α ε) → Floor α ε → List PortId
  | [], _ => []
  | m :: ms, f => (f.wasted? thread m).toList ++ wasted thread ms (f.apply thread m).2

theorem mem_wasted_cons : p ∈ wasted thread (m :: ms) f ↔
    (Move.isTooMany (m, (f.apply thread m).1) = true ∧ p = f.exchange.nextPort) ∨
      p ∈ wasted thread ms (f.apply thread m).2 := by
  rw [wasted, List.mem_append, Option.mem_toList, wasted?]
  cases Move.isTooMany (m, (f.apply thread m).1) <;> simp [eq_comm]

theorem mem_given_cons : p ∈ given (history thread (m :: ms) f) ↔
    Move.given? (m, (f.apply thread m).1) = some p ∨
      p ∈ given (history thread ms (f.apply thread m).2) := by
  rw [history, given_cons, List.mem_append, Option.mem_toList]

theorem Takes.issued_iff (ht : Takes f m t) (hs : f.Sound (m.opensPort.toNat + n)) :
    t.2.exchange.Issued p ↔ f.exchange.Issued p ∨ Move.given? (m, t.1) = some p ∨
      (Move.isTooMany (m, t.1) = true ∧ p = f.exchange.nextPort) := by
  cases ht with
  | nothing hissued hg hw => simp [hissued p, hg, hw]
  | given hm hnext hg hw =>
    simp [Exchange.issued_next_iff hs.consistent (hs.hasRoom hm) hnext, hg, hw, eq_comm]
  | wasted hm hnext hg hw =>
    simp [Exchange.issued_next_iff hs.consistent (hs.hasRoom hm) hnext, hg, hw]

/-- The numbers below the next one are those that were issued from the start, given out and wasted.
-/
theorem issued_run_iff (hs : f.Sound (ms.countP Move.opensPort + n)) :
    (run thread ms f).exchange.Issued p ↔ f.exchange.Issued p ∨
      p ∈ given (history thread ms f) ∨ p ∈ wasted thread ms f := by
  induction ms generalizing f with
  | nil => simp [run, history, given, wasted]
  | cons m ms ih =>
    rw [countP_opens_cons] at hs
    have hlater := ih (hs.apply thread)
    rw [mem_given_cons, mem_wasted_cons]
    change (run thread ms (f.apply thread m).2).exchange.Issued p ↔ _
    rw [hlater, (hs.takes thread).issued_iff hs, or_assoc, or_or_or_comm]

theorem not_issued_of_wasted (hs : f.Sound (ms.countP Move.opensPort + n))
    (hp : p ∈ wasted thread ms f) : ¬ f.exchange.Issued p := by
  induction ms generalizing f with
  | nil => cases hp
  | cons m ms ih =>
    rw [countP_opens_cons] at hs
    rcases mem_wasted_cons.1 hp with ⟨-, rfl⟩ | hp
    · exact f.exchange.not_issued_next
    · exact fun hissued => ih (hs.apply thread) hp ((grows_apply hs thread).issued p hissued)

theorem Takes.given?_of_wasted (ht : Takes f m t) (hw : Move.isTooMany (m, t.1) = true) :
    Move.given? (m, t.1) = none := by
  cases ht with
  | nothing _ hg _ | wasted _ _ hg _ => exact hg
  | given _ _ _ hw' =>
    rw [hw'] at hw
    cases hw

/-- A wasted number is never given out, neither before nor afterwards. -/
theorem not_given_of_wasted (hs : f.Sound (ms.countP Move.opensPort + n))
    (hp : p ∈ wasted thread ms f) : p ∉ given (history thread ms f) := by
  induction ms generalizing f with
  | nil => cases hp
  | cons m ms ih =>
    rw [countP_opens_cons] at hs
    have hissued := (hs.takes thread).issued_iff (p := p) hs
    have hlater := hs.apply thread
    rw [mem_given_cons]
    -- the later of the two moves takes a number that was not issued before, and the earlier issues it
    rcases mem_wasted_cons.1 hp with ⟨hw, hnext⟩ | hp <;> rintro (hg | hg)
    · rw [(hs.takes thread).given?_of_wasted hw] at hg
      cases hg
    · exact Int.lt_irrefl _ (lt_of_given hlater (hissued.2 (.inr (.inr ⟨hw, hnext⟩))) p hg)
    · exact not_issued_of_wasted hlater hp (hissued.2 (.inr (.inl hg)))
    · exact ih hlater hp hg

theorem settings_run (hs : f.Sound (ms.countP Move.opensPort + n)) (thread : Option String) :
    (run thread ms f).exchange.settings = f.exchange.settings := by
  induction ms generalizing f with
  | nil => rfl
  | cons m ms ih =>
    rw [countP_opens_cons] at hs
    obtain ⟨ops, he⟩ := hs.effect thread m
    exact (ih (hs.apply thread)).trans (he.runs.settings_eq hs.consistent (he.fit hs))

end Floor

/-- `n` reports a dropped post to `p` as one to a number that was never issued, unless it was; then
it says that the post came too late, and why, and is as loud as the settings want it. -/
structure Notice.Classifies (s : Settings) (p : PortId) (why : DropReason) (issued : Prop)
    (n : Notice) : Prop where
  never : n = .neverIssued p ∧ n.level = .warn ↔ ¬ issued
  late : issued →
    n = .dropped p why s.warnOnDropped ∧ n.level = if s.warnOnDropped then .warn else .trace

namespace Exchange

variable {x : Exchange} {p : PortId} {v : Value}

def lateness (x : Exchange) : DropReason := if x.closed then .exchangeClosed else .noLivePort

def dropNotice (x : Exchange) (p : PortId) : Notice :=
  if x.isIssued p then .dropped p x.lateness x.settings.warnOnDropped else .neverIssued p

theorem classifies_dropNotice (x : Exchange) (p : PortId) :
    (x.dropNotice p).Classifies x.settings p x.lateness (x.Issued p) := by
  unfold dropNotice
  by_cases hp : x.Issued p
  · rw [if_pos (isIssued_iff.2 hp)]
    refine ⟨⟨fun h => ?_, fun h => absurd hp h⟩, fun _ => ⟨rfl, ?_⟩⟩
    · cases h.1
    · cases x.settings.warnOnDropped <;> rfl
  · rw [if_neg (mt isIssued_iff.1 hp)]
    exact ⟨⟨fun _ => hp, fun _ => ⟨rfl, rfl⟩⟩, fun h => absurd h hp⟩

theorem journal_of_dropped (h : x.Consistent) (hd : (x.post p v).1 = .dropped) :
    (x.post p v).2.journal = x.journal ++ [x.dropNotice p] := by
  rw [post_eq h, hd]
  rfl

end Exchange

namespace Floor

theorem issued_start {s : Settings} {x : Exchange} (hx : Exchange.create s = .ok x) (p : PortId) :
    (start x : Floor α ε).exchange.Issued p ↔ p = Exchange.reversePort := by
  change 0 ≤ p.raw.toInt ∧ p.raw.toInt < x.nextPort.raw.toInt ↔ _
  rw [Exchange.nextPort_create hx]
  change 0 ≤ p.raw.toInt ∧ p.raw.toInt < 1 ↔ _
  refine ⟨fun hp => congrArg PortId.mk (Int64.toInt_inj.1 ?_), ?_⟩
  · change p.raw.toInt = 0
    omega
  · rintro rfl
    decide

/-- In every run that does not use up the numbers for ports: a post that is dropped while somebody
still holds the exchange is reported by one notice, a warning that the number was never issued
unless it is the one for reverse calls, was given out, or was wasted on an opening that was refused;
then the notice says that the post came too late, and the settings say how loud it is. -/
theorem run_classifies_drops {s : Settings} {x : Exchange} (hx : Exchange.create s = .ok x)
    (thread : Option String) (ms : List (Move α ε))
    (hfew : ms.countP Move.opensPort + 1 < PortId.supply) :
    let f := run thread ms (start x)
    let gave := given (history thread ms (start x))
    let lost := wasted thread ms (start x)
    (∀ p ∈ lost, p ≠ Exchange.reversePort ∧ p ∉ gave) ∧
    ∀ m p v, m.post? = some (p, v) → f.exchange.isGone = false →
      (f.apply thread m).1 = .reply (.delivery .dropped) →
      ∃ n, (f.apply thread m).2.exchange.journal = f.exchange.journal ++ [n] ∧
        n.Classifies s p f.exchange.lateness (p = Exchange.reversePort ∨ p ∈ gave ∨ p ∈ lost) := by
  intro f gave lost
  have hstart : (start x : Floor α ε).Sound (ms.countP Move.opensPort + 0) := sound_start hx hfew
  have hs : f.Sound 0 := hstart.run thread
  have hissued : ∀ p, f.exchange.Issued p ↔ p = Exchange.reversePort ∨ p ∈ gave ∨ p ∈ lost :=
    fun p => (issued_run_iff hstart).trans (or_congr_left (issued_start hx p))
  have hsettings : f.exchange.settings = s := by
    obtain ⟨-, rfl⟩ := Exchange.create_eq hx
    exact settings_run hstart thread
  refine ⟨fun p hp => ⟨?_, not_given_of_wasted hstart hp⟩, ?_⟩
  · exact fun he => not_issued_of_wasted hstart hp ((issued_start hx p).2 he)
  · intro m p v hpost hlive hdropped
    rw [apply_post thread hpost hlive] at hdropped ⊢
    have hd : (f.exchange.post p v).1 = .dropped := by
      injection hdropped with h
      injection h
    refine ⟨f.exchange.dropNotice p, Exchange.journal_of_dropped hs.consistent hd, ?_⟩
    rw [← hissued p, ← hsettings]
    exact f.exchange.classifies_dropNotice p

/-- A port that is closed again, and a number that no port has had. -/
theorem run_classifies_drops_of_closed_port : ∃ x, Exchange.create .standard = .ok x ∧
    let ms : List (Move Unit Unit) := [.step .openSingle rfl, .step (.act (.closePort ⟨1⟩)) rfl]
    let f := run none ms (start x)
    ms.countP Move.opensPort + 1 < PortId.supply ∧ f.exchange.isGone = false ∧
      (f.apply none (.deliver ⟨1⟩ .null)).1 = .reply (.delivery .dropped) ∧
      (f.apply none (.deliver ⟨-7⟩ .null)).1 = .reply (.delivery .dropped) ∧
      (∃ n, (f.apply none (.deliver ⟨1⟩ .null)).2.exchange.journal = f.exchange.journal ++ [n] ∧
        n = .dropped ⟨1⟩ .noLivePort false ∧ n.level = .trace) ∧
      ∃ n, (f.apply none (.deliver ⟨-7⟩ .null)).2.exchange.journal = f.exchange.journal ++ [n] ∧
        n = .neverIssued ⟨-7⟩ ∧ n.level = .warn := by
  obtain ⟨x, hx⟩ : ∃ x, Exchange.create .standard = .ok x := ⟨_, rfl⟩
  refine ⟨x, hx, ?_⟩
  intro ms f
  have hfew : ms.countP Move.opensPort + 1 < PortId.supply := by decide
  obtain ⟨-, hreport⟩ := run_classifies_drops hx none ms hfew
  have hgave : given (history none ms (start x)) = [⟨1⟩] := by
    cases hx
    rfl
  have hlost : wasted none ms (start x) = [] := by
    cases hx
    rfl
  rw [hgave, hlost] at hreport
  cases hx
  obtain ⟨n, hn, hlate⟩ := hreport (.deliver ⟨1⟩ .null) ⟨1⟩ .null rfl rfl rfl
  obtain ⟨n', hn', hnever⟩ := hreport (.deliver ⟨-7⟩ .null) ⟨-7⟩ .null rfl rfl rfl
  exact ⟨hfew, rfl, rfl, rfl, ⟨n, hn, hlate.late (by decide)⟩,
    ⟨n', hn', hnever.never.2 (by decide)⟩⟩

/-- With room for one call, the second opening is refused and wastes a number. A post to that number
is not reported as one to a number that was never issued. -/
theorem wasted_number_reported_late :
    ∃ x, Exchange.create { Settings.standard with maxPending := 1 } = .ok x ∧
      let ms : List (Move Unit Unit) := [.step .openSingle rfl, .step .openSingle rfl]
      let m : Move Unit Unit := .step (.act (.post ⟨2⟩ .null)) rfl
      let f := run none ms (start x)
      let gave := given (history none ms (start x))
      f.exchange.isGone = false ∧ (f.apply none m).1 = .reply (.delivery .dropped) ∧
        ¬ (⟨2⟩ = Exchange.reversePort ∨ ⟨2⟩ ∈ gave) ∧
        ∃ n, (f.apply none m).2.exchange.journal = f.exchange.journal ++ [n] ∧
          n = .dropped ⟨2⟩ .noLivePort false ∧ n.level = .trace ∧
          ¬ n.Classifies f.exchange.settings ⟨2⟩ f.exchange.lateness
            (⟨2⟩ = Exchange.reversePort ∨ ⟨2⟩ ∈ gave) := by
  refine ⟨_, rfl, ?_⟩
  intro ms m f gave
  have hgave : gave = [⟨1⟩] := rfl
  have hnot : ¬ (⟨2⟩ = Exchange.reversePort ∨ ⟨2⟩ ∈ gave) := by
    rw [hgave]
    decide
  refine ⟨rfl, rfl, hnot, .dropped ⟨2⟩ .noLivePort false, rfl, rfl, rfl, fun hclass => ?_⟩
  cases (hclass.never.2 hnot).1

end Floor

end CallExchange
