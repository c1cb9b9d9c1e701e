import CallExchange.Proofs.Floor.Shelves

set_option autoImplicit false

/-!
# Moves of several threads

Every move may be made by a thread of its own. Whatever is in the exchange, code that runs stays
where it is until it is over, and what is found in the place of a handle later is what is left of
the handle that was put there.
-/

namespace CallExchange

variable {α ε : Type}

namespace Floor

variable {f : Floor α ε} {thread : Option String} {m : Move α ε} {i n : Nat}

theorem running_launch {r r' : Running α ε} (hr : f.running[i]?.join = some r) :
    (f.launch r').running[i]?.join = some r := by
  have hi : i < f.running.length := by
    refine Nat.lt_of_not_le fun hle => ?_
    rw [List.getElem?_eq_none hle] at hr
    cases hr
  rw [launch, List.getElem?_append_left hi]
  exact hr

theorem running_begin {β : Type} {r : Except Fault β × Exchange} {port : β → PortId}
    {running : β → Running α ε} {r' : Running α ε} (hr : f.running[i]?.join = some r') :
    (f.begin r port running).2.running[i]?.join = some r' := by
  unfold Floor.begin
  split
  · split
    · exact hr
    · exact running_launch (f := f.put _) hr
  · exact hr

theorem running_step (f : Floor α ε) (thread : Option String) (st : Step α ε) :
    (f.step thread st).2.running = f.running := by
  cases st <;> first | rfl | (unfold Floor.step; dsimp only; split <;> rfl)

/-- Running code stays where it is until it is over. -/
theorem running_apply {r : Running α ε} (thread : Option String) (hr : f.running[i]?.join = some r)
    (hm : ∀ ended, m ≠ .finish i ended) : (f.apply thread m).2.running[i]?.join = some r := by
  cases m with
  | step st h =>
    change (f.step thread st).2.running[i]?.join = some r
    rw [running_step]
    exact hr
  | deliver | keep | see | announce => exact hr
  | beginAsync task codec => exact running_begin hr
  | beginStream task codec => exact running_begin hr
  | beginSync task codec =>
    change (if f.session.dispatcher then _ else _ : Turn α ε).2.running[i]?.join = some r
    split
    · exact running_launch (f := f.put _) hr
    · exact hr
  | beginCallback message =>
    change (f.beginCallback message).2.running[i]?.join = some r
    unfold Floor.beginCallback
    dsimp only
    split
    · exact hr
    · split
      · exact hr
      · exact running_launch (f := { f with session := _ }) hr
  | finish j ended =>
    have hne : j ≠ i := by
      rintro rfl
      exact hm ended rfl
    change (f.finish thread j ended).2.running[i]?.join = some r
    unfold Floor.finish
    split
    · exact hr
    · rw [turn, List.getElem?_set_ne hne]
      exact hr

def stateAfter (thread : Option String) (task : String) (k : Ticket) :
    Except Panic Buffer → Deferred.State ε
  | .ok _ => .waiting k
  | .error p => .failed (some (.fatal (.observed thread task p.message)))

def failureAfter (thread : Option String) (name : String) : Except Panic Buffer → Option (Failure ε)
  | .ok _ => none
  | .error p => some (.fatal (.observed thread name p.message))

theorem finish_none (thread : Option String) (ended : Except Panic Buffer)
    (hr : f.running[i]?.join = none) :
    f.apply thread (.finish i ended) = (.reply .noHandle, f) := by
  change f.finish thread i ended = _
  rw [Floor.finish, hr]
  rfl

theorem finish_some (thread : Option String) {r : Running α ε} (ended : Except Panic Buffer)
    (hr : f.running[i]?.join = some r) :
    f.apply thread (.finish i ended) = { f with running := f.running.set i none }.turn
      (conclude thread r ended f.session) := by
  change f.finish thread i ended = _
  rw [Floor.finish, hr]

theorem finish_normal (thread : Option String) {task : String} {codec : Codec α ε} {p : PortId}
    {k : Ticket}
    (hr : f.running[i]?.join = some (.async task codec p k)) (ended : Except Panic Buffer) :
    let d : Deferred α ε := ⟨stateAfter thread task k ended, codec, task, p⟩
    let t := f.apply thread (.finish i ended)
    (∃ ready text, t.1 = .deferred f.session.deferreds.length d ready text) ∧
      t.2.session.deferreds = f.session.deferreds ++ [some d] := by
  rw [finish_some thread ended hr]
  cases ended <;> exact ⟨⟨_, _, rfl⟩, rfl⟩

theorem finish_stream (thread : Option String) {task : String} {codec : Codec α ε}
    {port : Exchange.Broadcast}
    (hr : f.running[i]?.join = some (.stream task codec port)) (ended : Except Panic Buffer) :
    let c : Stream α ε := ⟨port, codec, task, failureAfter thread port.name ended, false⟩
    let t := f.apply thread (.finish i ended)
    (∃ text, t.1 = .stream f.session.streams.length c text) ∧
      t.2.session.streams = f.session.streams ++ [some c] := by
  rw [finish_some thread ended hr]
  cases ended <;> exact ⟨⟨_, rfl⟩, rfl⟩

/-- Moves, each with the name of the thread that makes it. -/
def runBy (ms : List (Option String × Move α ε)) (f : Floor α ε) : Floor α ε :=
  ms.foldl (fun f e => (f.apply e.1 e.2).2) f

variable {ms : List (Option String × Move α ε)}

theorem running_runBy {r : Running α ε} (hr : f.running[i]?.join = some r)
    (hms : ∀ e ∈ ms, ∀ ended, e.2 ≠ .finish i ended) :
    (runBy ms f).running[i]?.join = some r := by
  induction ms generalizing f with
  | nil => exact hr
  | cons e ms ih =>
    exact ih (running_apply e.1 hr (hms e List.mem_cons_self))
      fun e' he' => hms e' (List.mem_cons_of_mem e he')

theorem deferred_runBy {d' : Deferred α ε} (hn : n < f.session.deferreds.length)
    (hd : (runBy ms f).session.deferreds[n]?.join = some d') :
    ∃ d, f.session.deferreds[n]?.join = some d ∧ d.Later d' := by
  induction ms generalizing f with
  | nil => exact ⟨d', hd, .inl rfl⟩
  | cons e ms ih =>
    have hshelf := (shelves_apply f e.1 e.2).deferreds
    obtain ⟨d₁, hd₁, hlater⟩ := ih (Nat.lt_of_lt_of_le hn hshelf.length_le) hd
    obtain ⟨d, hd, hfirst⟩ := hshelf.origin (fun _ => .inl rfl) hn hd₁
    exact ⟨d, hd, hfirst.trans hlater⟩

theorem stream_runBy {c' : Stream α ε} (hn : n < f.session.streams.length)
    (hc : (runBy ms f).session.streams[n]?.join = some c') :
    ∃ c, f.session.streams[n]?.join = some c ∧ c.Later c' := by
  induction ms generalizing f with
  | nil => exact ⟨c', hc, .refl c'⟩
  | cons e ms ih =>
    have hshelf := (shelves_apply f e.1 e.2).streams
    obtain ⟨c₁, hc₁, hlater⟩ := ih (Nat.lt_of_lt_of_le hn hshelf.length_le) hc
    obtain ⟨c, hc, hfirst⟩ := hshelf.origin .refl hn hc₁
    exact ⟨c, hc, hfirst.trans hlater⟩

end Floor

end CallExchange
