import CallExchange.Proofs.Notifications
import CallExchange.Proofs.Registrations

set_option autoImplicit false

/-!
# Tokens of an exchange

The callbacks of an exchange are a table like any other: what a run does to it is what registering,
unregistering, calling and the first shutdown do, on whatever thread and in whatever callback. So a
token never comes to stand for another function, also when callbacks change the table that they were
started from.
-/

namespace CallExchange

open Callbacks (Deed Leads)

variable {α ε : Type}

namespace Floor

variable {f : Floor α ε} {m : Move α ε} {ms : List (Move α ε)} {thread : Option String}

/-- What a move did to the callbacks, as it was answered. -/
def deeds (thread : Option String) (f : Floor α ε) (m : Move α ε) : List (Deed Routine) :=
  match m with
  | .step (.act (.register shape label body)) _ =>
    match (f.apply thread m).1 with
    | .reply (.token t) => [(.register ⟨shape, label, body⟩, .token t)]
    | _ => []
  | .step (.act (.unregister t)) _ =>
    match (f.apply thread m).1 with
    | .reply (.flag b) => [(.unregister t, .flag b)]
    | _ => []
  | .beginCallback (.list (.callback t :: args)) =>
    match (f.apply thread m).1 with
    | .reply (.fault e) => [(.invoke t args, .refused e)]
    | _ => (f.made? m).toList.map fun call => (.invoke t args, .started call)
  | m => if f.shutsFirst thread m then [(.clear, .cleared)] else []

def allDeeds : List (Option String × Move α ε) → Floor α ε → List (Deed Routine)
  | [], _ => []
  | (thread, m) :: ms, f => f.deeds thread m ++ allDeeds ms (f.apply thread m).2

theorem settle_whileUp {β : Type} (g : Exchange → β × Exchange) (answer : β → Reply) :
    f.turn (f.session.settle (f.session.stage.whileUp fun x => f.session.stage.on (g x) answer)
        Session.replied) =
      if f.exchange.isGone then (.reply .exchangeGone, f)
      else (.reply (answer (g f.exchange).1), f.put (g f.exchange).2) := by
  rw [Stage.whileUp, show f.session.stage.exchange = f.exchange from rfl]
  split <;> rfl

theorem leads_register (shape : Shape) (label : String) (body : Script)
    (h : (Step.act (.register shape label body) : Step α ε).isElementary = true) :
    Leads f.exchange.callbacks (f.deeds thread (.step (.act (.register shape label body)) h))
      (f.apply thread (.step (.act (.register shape label body)) h)).2.exchange.callbacks := by
  have hstep : f.apply thread (.step (.act (.register shape label body)) h) = _ :=
    settle_whileUp (fun x => x.register ⟨shape, label, body⟩) .token
  rw [deeds, hstep]
  cases f.exchange.isGone with
  | true => exact .nil
  | false => exact .single f.exchange.callbacks (.register ⟨shape, label, body⟩)

theorem leads_unregister (t : Token)
    (h : (Step.act (.unregister t) : Step α ε).isElementary = true) :
    Leads f.exchange.callbacks (f.deeds thread (.step (.act (.unregister t)) h))
      (f.apply thread (.step (.act (.unregister t)) h)).2.exchange.callbacks := by
  have hstep : f.apply thread (.step (.act (.unregister t)) h) = _ :=
    settle_whileUp (fun x => x.unregister t) .flag
  rw [deeds, hstep]
  cases f.exchange.isGone with
  | true => exact .nil
  | false => exact .single f.exchange.callbacks (.unregister t)

theorem leads_beginCallback (t : Token) (args : List Value) :
    Leads f.exchange.callbacks (f.deeds thread (.beginCallback (.list (.callback t :: args))))
      (f.apply thread (.beginCallback (.list (.callback t :: args)))).2.exchange.callbacks := by
  have hinvoke := Leads.single f.exchange.callbacks (.invoke t args)
  rw [Callbacks.apply] at hinvoke
  have hmade : f.made? (.beginCallback (.list (.callback t :: args)) : Move α ε) =
      if f.exchange.isGone then none else (f.exchange.callbacks.start t args).toOption := rfl
  rw [deeds, hmade]
  cases hgone : f.exchange.isGone with
  | true =>
    have hbegin : f.apply thread (.beginCallback (.list (.callback t :: args))) =
        (.reply .exchangeGone, f) := if_pos hgone
    rw [hbegin]
    exact .nil
  | false =>
    cases hread : f.exchange.callbacks.start t args with
    | error e =>
      have hrefused : f.exchange.callbacks.read (.list (.callback t :: args)) = .error e := hread
      have hrefuses := refuses_of_read thread hgone hrefused
      rw [hrefuses.answer, Exchange.callbacks_signals hrefuses.untouched.signals]
      rw [hread] at hinvoke
      exact hinvoke
    | ok call =>
      have hmade : f.exchange.callbacks.read (.list (.callback t :: args)) = .ok call := hread
      have hmakes := makes_of_read thread hgone hmade
      rw [hmakes.answer, hmakes.exchange]
      rw [hread] at hinvoke
      exact hinvoke

/-- No other move changes the table, but for the one that shuts the exchange down. -/
theorem leads_other (hregister : Move.registered? (m, (f.apply thread m).1) = none)
    (hunregister : ∀ t h, m ≠ .step (.act (.unregister t)) h) :
    Leads f.exchange.callbacks (if f.shutsFirst thread m then [(.clear, .cleared)] else [])
      (f.apply thread m).2.exchange.callbacks := by
  have hcalm : ∀ {s : Exchange.Signals}, (f.apply thread m).2.exchange.signals = s →
      s.closed = f.exchange.closed → s.callbacks = f.exchange.callbacks →
        Leads f.exchange.callbacks (if f.shutsFirst thread m then [(.clear, .cleared)] else [])
          (f.apply thread m).2.exchange.callbacks := by
    intro s hs hclosed hcallbacks
    have hsame : (f.apply thread m).2.exchange.callbacks = f.exchange.callbacks :=
      (congrArg Exchange.Signals.callbacks hs).trans hcallbacks
    rw [shutsFirst_of_closed ((congrArg Exchange.Signals.closed hs).trans hclosed), hsame]
    exact .nil
  cases f.sends_apply thread m with
  | fades _ _ _ hf =>
    cases hf with
    | calm hsig => exact hcalm hsig rfl rfl
    | down hx hsig =>
      have hclosed : (f.apply thread m).2.exchange.closed = true :=
        congrArg Exchange.Signals.closed hsig
      have hcleared : (f.apply thread m).2.exchange.callbacks = f.exchange.callbacks.clear :=
        congrArg Exchange.Signals.callbacks hsig
      rw [shutsFirst, hx, hclosed, hcleared]
      exact .single _ .clear
  | rings _ _ hsig | waited _ _ _ _ _ _ _ hsig | disturbed _ _ _ _ _ hsig =>
    exact hcalm hsig rfl rfl
  | registered c _ hr =>
    rw [hregister] at hr
    cases hr
  | unregistered s _ _ _ hs =>
    obtain ⟨h, hm⟩ := hs
    exact absurd hm (hunregister s h)

theorem leads_apply (f : Floor α ε) (thread : Option String) (m : Move α ε) :
    Leads f.exchange.callbacks (f.deeds thread m) (f.apply thread m).2.exchange.callbacks := by
  unfold deeds
  split
  · exact leads_register _ _ _ _
  · exact leads_unregister _ _
  · exact leads_beginCallback _ _
  · rename_i hregister hunregister _
    refine leads_other ?_ fun t h hm => hunregister t h hm
    unfold Move.registered?
    split
    · rename_i shape label body h t he
      exact (hregister shape label body h (congrArg Prod.fst he)).elim
    · rfl

theorem leads_runBy (ms : List (Option String × Move α ε)) (f : Floor α ε) :
    Leads f.exchange.callbacks (allDeeds ms f) (runBy ms f).exchange.callbacks := by
  induction ms generalizing f with
  | nil => exact .nil
  | cons m ms ih => exact (f.leads_apply m.1 m.2).trans (ih _)

/-- A token never comes to stand for another function. Whatever is done to a table, by callbacks
that it starts too, and whatever a run does to the callbacks of an exchange: each new token is
greater than all before it, everything is answered by what a token stands for, which is the function
that it was handed out for until it is unregistered or all are forgotten, and a token that stands no
more does not come back. -/
theorem tokens_never_recycled {β : Type} (d : Callbacks.Doing β)
    (hd : (Callbacks.issued (d.run .empty).1).length < UInt64.size) {s : Settings} {x : Exchange}
    (hx : Exchange.create s = .ok x) (ms : List (Option String × Move α ε))
    (hms : (Callbacks.issued (allDeeds ms (start x))).length < UInt64.size) :
    Callbacks.Honours (d.run .empty).1 (d.run .empty).2 ∧
      Callbacks.Honours (allDeeds ms (start x)) (runBy ms (start x)).exchange.callbacks := by
  refine ⟨Callbacks.honours_of_leads (d.leads_run .empty) hd, ?_⟩
  have hstart : (start x : Floor α ε).exchange.callbacks = .empty := by
    obtain ⟨-, rfl⟩ := Exchange.create_eq hx
    rfl
  have hleads := leads_runBy ms (start x)
  rw [hstart] at hleads
  exact Callbacks.honours_of_leads hleads hms

/-- A callback registers another, unregisters itself and then forgets all; on an exchange one does
so while it runs, and the exchange is shut down. -/
theorem tokens_never_recycled_by_body : ∃ x, Exchange.create .standard = .ok x ∧
    let c : Callable Nat := ⟨.nullary, 0⟩
    let d : Callbacks.Doing Nat :=
      .next (.register c) .done <| .next (.invoke ⟨1⟩ [])
        (.next (.register c) .done <| .next (.unregister ⟨1⟩) .done <| .next .clear .done .done) <|
        .next (.register c) .done .done
    let register : Option String × Move Unit Unit :=
      (none, .step (.act (.register .nullary "f" [])) rfl)
    let ms : List (Option String × Move Unit Unit) :=
      [register, (none, .beginCallback (.list [.callback ⟨1⟩])), register,
        (some "t", .step (.act (.unregister ⟨1⟩)) rfl), (none, .finish 0 (.ok ⟨[]⟩)),
        (some "t", .step (.act .shutdown) rfl), register]
    (Callbacks.issued (d.run .empty).1 = [⟨1⟩, ⟨2⟩, ⟨3⟩] ∧
        Callbacks.issued (allDeeds ms (start x)) = [⟨1⟩, ⟨2⟩, ⟨3⟩]) ∧
      Callbacks.Honours (d.run .empty).1 (d.run .empty).2 ∧
      Callbacks.Honours (allDeeds ms (start x)) (runBy ms (start x)).exchange.callbacks := by
  obtain ⟨x, hx⟩ : ∃ x, Exchange.create .standard = .ok x := ⟨_, rfl⟩
  refine ⟨x, hx, ?_⟩
  intro c d register ms
  have hd : Callbacks.issued (d.run .empty).1 = [⟨1⟩, ⟨2⟩, ⟨3⟩] := by rfl
  have hms : Callbacks.issued (allDeeds ms (start x)) = [⟨1⟩, ⟨2⟩, ⟨3⟩] := by
    cases hx
    rfl
  exact ⟨⟨hd, hms⟩, tokens_never_recycled d (by rw [hd]; decide) hx ms (by rw [hms]; decide)⟩

end Floor

end CallExchange
