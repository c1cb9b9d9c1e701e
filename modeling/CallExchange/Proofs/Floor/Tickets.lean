import CallExchange.Proofs.Floor.Settlements
import CallExchange.Proofs.Floor.Threads

set_option autoImplicit false

/-!
# Tickets in hand

The tickets of single ports are handed out by one step only. Whoever holds one holds one that was
issued, however long a run is.
-/

namespace CallExchange.Floor

variable {α ε : Type} {f : Floor α ε} {m : Move α ε} {n : Nat} {thread : Option String}

section Tickets

variable {s : Session α ε}

theorem tickets_withHandle {η : Type} {handles : List (Option η)} {g : η → Session.Turn α ε}
    (hg : ∀ e, (g e).2.tickets = s.tickets) : (s.withHandle handles n g).2.tickets = s.tickets := by
  unfold Session.withHandle
  split
  · exact hg _
  · rfl

theorem tickets_withDispatcher {g : Exchange → Session.Turn α ε}
    (hg : (g s.exchange).2.tickets = s.tickets) : (s.withDispatcher g).2.tickets = s.tickets := by
  unfold Session.withDispatcher
  split
  · exact hg
  · rfl

theorem tickets_settle {β : Type} {o : Outcome Stage β} {g : β → Session α ε → Session.Turn α ε}
    (hg : ∀ b s, (g b s).2.tickets = s.tickets) : (s.settle o g).2.tickets = s.tickets := by
  cases o with
  | returned b st => exact hg b _
  | unwound | exhausted => rfl

theorem tickets_step (st : Step α ε) (h : st.isElementary = true) (hopen : st ≠ .openSingle)
    (hread : ∀ n r, st ≠ .readTicket n r) : (s.step 0 thread st).2.tickets = s.tickets := by
  cases st with
  | callAsync | callStream | callSync | collect | pump | pumpOnce | threads => cases h
  | openSingle => exact absurd rfl hopen
  | readTicket n r => exact absurd rfl (hread n r)
  | act a => exact tickets_settle fun _ _ => rfl
  | tryTake | waitTimeout | poll | next | nextTimeout | receive | receiveWithin =>
    exact tickets_withHandle fun _ => by split <;> rfl
  | wait => exact tickets_withHandle fun _ => by split <;> [split <;> rfl; rfl]
  | ready | deferredText | streamInfo | broadcastInfo | dropDeferred | closeStream | dropStream
  | tryReceive | closeBroadcast | dropBroadcast => exact tickets_withHandle fun _ => rfl
  | openBroadcast task =>
    exact tickets_withDispatcher (by cases (s.exchange.openBroadcast task).1 <;> rfl)
  | waitForDelivery =>
    refine tickets_withDispatcher ?_
    unfold Exchange.waitForDelivery
    cases s.exchange.notifier.wait <;> rfl
  | reverseHandle | dispatcherText | dispatcherCounters | shutdownDispatcher | cloneDispatcher
  | dropDispatcher => exact tickets_withDispatcher rfl
  | breakNotifier | saturateNotifier =>
    unfold Session.step Session.withNotifier
    dsimp only
    split <;> rfl

end Tickets

theorem tickets_apply (hopen : ∀ h, m ≠ .step .openSingle h)
    (hread : ∀ n r h, m ≠ .step (.readTicket n r) h) :
    (f.apply thread m).2.session.tickets = f.session.tickets := by
  cases m with
  | step st h =>
    have hst : (f.session.step 0 thread st).2.tickets = f.session.tickets :=
      tickets_step st h (fun he => hopen (he ▸ h) (by subst he; rfl))
        fun n r he => hread n r (he ▸ h) (by subst he; rfl)
    cases st with
    | dropDispatcher =>
      change (if f.isBusy then (.wouldBlock, f) else f.turn _ : Turn α ε).2.session.tickets = _
      split
      · rfl
      · exact hst
    | _ => exact hst
  | deliver p v =>
    exact tickets_settle (o := f.session.stage.on (f.exchange.deliver p v) .delivery) fun _ _ => rfl
  | keep | see | announce => rfl
  | beginAsync | beginStream =>
    change (f.begin _ _ _).2.session.tickets = _
    unfold Floor.begin
    split
    · split <;> rfl
    · rfl
  | beginSync =>
    change (if f.session.dispatcher then _ else _ : Turn α ε).2.session.tickets = _
    split <;> rfl
  | beginCallback message =>
    change (f.beginCallback message).2.session.tickets = _
    unfold Floor.beginCallback
    dsimp only
    split
    · rfl
    · split <;> rfl
  | finish i ended =>
    change (f.finish thread i ended).2.session.tickets = _
    unfold Floor.finish
    split
    · rfl
    · rename_i r _
      cases r <;> cases ended <;> rfl

abbrev Issues (f : Floor α ε) : Prop := f.exchange.pending.Issues f.session.tickets

theorem Issues.openSingle (hf : f.Issues) (h : (Step.openSingle : Step α ε).isElementary = true) :
    (f.apply thread (.step .openSingle h)).2.Issues := by
  change (f.turn (f.session.withDispatcher _)).2.Issues
  unfold Session.withDispatcher
  split
  · change (f.turn (Session.addSingle f.exchange.openSingle.1
      (f.session.put f.exchange.openSingle.2))).2.Issues
    have hopened := f.exchange.openSingle_opened
    generalize f.exchange.openSingle.1 = r at hopened
    generalize f.exchange.openSingle.2 = y at hopened
    cases hopened with
    | closed | refused => exact hf
    | opened k r _ hr => exact Pending.Issues.register hf hr
  · exact hf

theorem Issues.readTicket (hf : f.Issues) (r : OneShot.Read)
    (h : (Step.readTicket n r : Step α ε).isElementary = true) :
    (f.apply thread (.step (.readTicket n r) h)).2.Issues := by
  change (f.turn (f.session.readTicket n r)).2.Issues
  unfold Session.readTicket
  split
  · exact hf
  · rename_i k _
    exact (Pending.Issues.after_read hf _ n).grows
      (Nat.le_of_eq (f.exchange.pending.slots_setSlot_length k _).symm)

theorem Issues.apply (hf : f.Issues) (hx : f.exchange.pending.Sound) (thread : Option String)
    (m : Move α ε) : (f.apply thread m).2.Issues := by
  by_cases hopen : ∃ h, m = .step .openSingle h
  · obtain ⟨h, rfl⟩ := hopen
    exact hf.openSingle h
  · by_cases hread : ∃ n r h, m = .step (.readTicket n r) h
    · obtain ⟨n, r, h, rfl⟩ := hread
      exact hf.readTicket r h
    · have hsame : (f.apply thread m).2.session.tickets = f.session.tickets :=
        tickets_apply (fun h he => hopen ⟨h, he⟩) fun n r h he => hread ⟨n, r, h, he⟩
      obtain ⟨ws, -, hsteps⟩ := (f.treats_apply thread m).steps hx
      rw [Issues, hsame]
      exact Pending.Issues.grows hf hsteps.grows

theorem Issues.runBy (hf : f.Issues) (hx : f.exchange.pending.Sound)
    (ms : List (Option String × Move α ε)) : (runBy ms f).Issues := by
  induction ms generalizing f with
  | nil => exact hf
  | cons e ms ih =>
    obtain ⟨ws, -, hsteps⟩ := (f.treats_apply e.1 e.2).steps hx
    exact ih (hf.apply hx e.1 e.2) hsteps.sound

end CallExchange.Floor
