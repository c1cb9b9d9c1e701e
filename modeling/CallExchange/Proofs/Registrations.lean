import CallExchange.Proofs.Invocations
import CallExchange.Proofs.Lookup

set_option autoImplicit false

/-!
# Registered callbacks

What is registered follows from what was done to a table, and from nothing else: a token stands for
the function that it was handed out for, until it is unregistered or all are forgotten. Whatever a
callback does while it runs is done to the same table, so a call is nothing but its start and then
the deeds of its body.
-/

namespace CallExchange.Callbacks

variable {β : Type}

abbrev Deed (β : Type) := Command β × Answer β

def issued (h : List (Deed β)) : List Token := h.filterMap fun
  | (.register _, .token t) => some t
  | _ => none

/-- Whether `t` was handed out for `f` and neither unregistered nor forgotten since. -/
def Stands (h : List (Deed β)) (t : Token) (f : Callable β) : Prop :=
  ∃ old new, h = old ++ (.register f, .token t) :: new ∧
    ∀ e ∈ new, e.1 ≠ .unregister t ∧ e.1 ≠ .clear

/-- What a command is answered after `h`. -/
inductive Answered (h : List (Deed β)) : Command β → Answer β → Prop where
  /-- A new token is greater than all others. -/
  | token (f : Callable β) (t : Token) (ht : ∀ s ∈ issued h, s.raw < t.raw) :
      Answered h (.register f) (.token t)
  | flag (t : Token) (b : Bool) (hb : b = true ↔ ∃ f, Stands h t f) :
      Answered h (.unregister t) (.flag b)
  | resolved (t : Token) (r : Option (Callable β)) (hr : ∀ f, r = some f ↔ Stands h t f) :
      Answered h (.resolve t) (.resolved r)
  | started (t : Token) (f : Callable β) (args : List Value) (hf : Stands h t f)
      (hn : f.shape.Takes args.length) : Answered h (.invoke t args) (.started ⟨f, args⟩)
  | mismatch (t : Token) (f : Callable β) (k : Nat) (args : List Value) (hf : Stands h t f)
      (hk : f.shape.arity = some k) (hn : k ≠ args.length) :
      Answered h (.invoke t args) (.refused (.arityMismatch t k args.length))
  | unresolved (t : Token) (args : List Value) (hf : ∀ f, ¬ Stands h t f) :
      Answered h (.invoke t args) (.refused (.unresolvedCallback t))
  | cleared : Answered h .clear .cleared

inductive Faithful : List (Deed β) → Prop where
  | nil : Faithful []
  | concat {h : List (Deed β)} (cmd : Command β) (a : Answer β) (hh : Faithful h)
      (ha : Answered h cmd a) : Faithful (h ++ [(cmd, a)])

/-- What a table has to do with what was done to it. -/
structure Honours (h : List (Deed β)) (c : Callbacks β) : Prop where
  increasing : (issued h).Pairwise fun s t => s.raw < t.raw
  answers : Faithful h
  resolves : ∀ t f, c.resolve? t = some f ↔ Stands h t f
  /-- A token that is unregistered or forgotten stays so, whatever is registered later. -/
  gone : ∀ old e new t, h = old ++ e :: new → t ∈ issued old → e.1 = .unregister t ∨ e.1 = .clear →
    c.resolve? t = none
  size : ∃ ts : List Token, ts.Nodup ∧ ts.length = c.size ∧
    ∀ t, t ∈ ts ↔ (c.resolve? t).isSome = true

inductive Leads (c : Callbacks β) : List (Deed β) → Callbacks β → Prop where
  | nil : Leads c [] c
  | concat {h : List (Deed β)} {d : Callbacks β} (cmd : Command β) (hd : Leads c h d) :
      Leads c (h ++ [(cmd, (d.apply cmd).1)]) (d.apply cmd).2

variable {c d e : Callbacks β} {h h' old new : List (Deed β)} {t s : Token} {f g : Callable β}
  {cmd : Command β} {a : Answer β}

namespace Leads

theorem single (c : Callbacks β) (cmd : Command β) :
    Leads c [(cmd, (c.apply cmd).1)] (c.apply cmd).2 := .concat cmd .nil

theorem trans (hd : Leads c h d) (he : Leads d h' e) : Leads c (h ++ h') e := by
  induction he with
  | nil =>
    rw [List.append_nil]
    exact hd
  | concat cmd _ ih =>
    rw [← List.append_assoc]
    exact ih.concat cmd

end Leads

theorem issued_concat (h : List (Deed β)) (cmd : Command β) (a : Answer β) :
    issued (h ++ [(cmd, a)]) = issued h ++ issued [(cmd, a)] := List.filterMap_append

theorem not_stands_nil : ¬ Stands ([] : List (Deed β)) t f := by
  rintro ⟨old, new, he, -⟩
  cases old <;> cases he

theorem stands_concat : Stands (h ++ [(cmd, a)]) t f ↔
    Stands h t f ∧ cmd ≠ .unregister t ∧ cmd ≠ .clear ∨ cmd = .register f ∧ a = .token t := by
  constructor
  · rintro ⟨old, new, he, hnew⟩
    rcases List.eq_nil_or_concat' new with rfl | ⟨new, e, rfl⟩
    · have hlast := List.append_inj_right' he rfl
      cases hlast
      exact .inr ⟨rfl, rfl⟩
    · rw [← List.cons_append, ← List.append_assoc] at he
      have hfront := List.append_inj_left' he rfl
      cases List.append_inj_right' he rfl
      exact .inl ⟨⟨old, new, hfront, fun e he => hnew e (List.mem_append_left _ he)⟩,
        hnew _ (List.mem_append_right _ (List.mem_singleton_self _))⟩
  · rintro (⟨⟨old, new, rfl, hnew⟩, hcmd⟩ | ⟨rfl, rfl⟩)
    · refine ⟨old, new ++ [(cmd, a)], by rw [List.append_assoc]; rfl, fun e he => ?_⟩
      rcases List.mem_append.1 he with he | he
      · exact hnew e he
      · rw [List.mem_singleton.1 he]
        exact hcmd
    · exact ⟨h, [], rfl, fun e he => by cases he⟩

theorem Stands.mem_issued (hs : Stands h t f) : t ∈ issued h := by
  obtain ⟨old, new, rfl, -⟩ := hs
  exact List.mem_filterMap.2 ⟨_, List.mem_append_right _ (List.mem_cons_self ..), rfl⟩

/-- A token that was handed out and stands no more does not come back. -/
theorem Faithful.stays_gone (hh : Faithful h) (he : h = old ++ new) (ht : t ∈ issued old)
    (hgone : ∀ f, ¬ Stands old t f) : ∀ f, ¬ Stands h t f := by
  induction hh generalizing new with
  | nil =>
    intro f
    exact not_stands_nil
  | concat cmd a hh ha ih =>
    rcases List.eq_nil_or_concat' new with rfl | ⟨new, e, rfl⟩
    · rw [he, List.append_nil]
      exact hgone
    · rw [← List.append_assoc] at he
      have hfront := List.append_inj_left' he rfl
      intro f hf
      rcases stands_concat.1 hf with ⟨hf, -⟩ | ⟨rfl, rfl⟩
      · exact ih hfront f hf
      · cases ha with
        | token _ _ hfresh =>
          have hold : t ∈ issued _ := hfront ▸ List.filterMap_append ▸ List.mem_append_left _ ht
          exact UInt64.lt_irrefl _ (hfresh t hold)

/-- What keeps a table in step with what was done to it: tokens are counted up from one. -/
structure Counts (h : List (Deed β)) (c : Callbacks β) : Prop where
  next : c.next = ⟨UInt64.ofNat ((issued h).length + 1)⟩
  tokens : issued h = (List.range (issued h).length).map fun i => ⟨UInt64.ofNat (i + 1)⟩
  keys : (c.table.map Prod.fst).Nodup
  resolves : ∀ t f, c.resolve? t = some f ↔ Stands h t f

namespace Counts

theorem empty : Counts [] (empty : Callbacks β) where
  next := rfl
  tokens := rfl
  keys := List.nodup_nil
  resolves t f := iff_of_false (fun h => by cases h) not_stands_nil

theorem raw_lt {i j : Nat} (hij : i < j) (hj : j < UInt64.size) :
    UInt64.ofNat i < UInt64.ofNat j := by
  rw [UInt64.lt_iff_toNat_lt, UInt64.toNat_ofNat_of_lt' (Nat.lt_trans hij hj),
    UInt64.toNat_ofNat_of_lt' hj]
  exact hij

theorem increasing (hc : Counts h c) (hfew : (issued h).length < UInt64.size) :
    (issued h).Pairwise fun s t => s.raw < t.raw := by
  rw [hc.tokens, List.pairwise_map]
  refine List.pairwise_lt_range.imp_of_mem fun _ hj hij => ?_
  have hj := List.mem_range.1 hj
  exact raw_lt (by omega) (by omega)

theorem fresh (hc : Counts h c) (hfew : (issued h).length + 1 < UInt64.size) :
    ∀ s ∈ issued h, s.raw < c.next.raw := by
  intro s hs
  rw [hc.tokens] at hs
  obtain ⟨i, hi, rfl⟩ := List.mem_map.1 hs
  rw [hc.next]
  exact raw_lt (Nat.succ_lt_succ (List.mem_range.1 hi)) hfew

theorem resolve_next (hc : Counts h c) (hfew : (issued h).length + 1 < UInt64.size) :
    c.resolve? c.next = none := by
  cases hr : c.resolve? c.next with
  | none => rfl
  | some f =>
    have hmem := ((hc.resolves _ _).1 hr).mem_issued
    exact absurd (hc.fresh hfew _ hmem) (UInt64.lt_irrefl _)

theorem register (hc : Counts h c) (f : Callable β)
    (hfew : (issued h).length + 1 < UInt64.size) :
    Counts (h ++ [(.register f, .token c.next)]) (c.register f).2 := by
  have hissued : issued (h ++ [(.register f, .token c.next)]) =
      issued h ++ [c.next] := issued_concat _ _ _
  have hlength := congrArg List.length hissued
  rw [List.length_append] at hlength
  refine ⟨?_, ?_, Lookup.nodup_keys_concat hc.keys f (hc.resolve_next hfew), fun t g => ?_⟩
  · rw [hlength]
    change Token.mk (c.next.raw + 1) = _
    rw [hc.next, List.length_singleton, UInt64.ofNat_add (_ + 1) 1]
    rfl
  · rw [hlength, hissued, List.length_singleton, List.range_succ, List.map_append, ← hc.tokens]
    exact congrArg (issued h ++ [·]) hc.next
  · rw [stands_concat, ← hc.resolves]
    change (c.table ++ [(c.next, f)]).lookup t = some g ↔ _
    rw [Lookup.lookup_concat]
    by_cases ht : t = c.next
    · rw [ht, if_pos rfl, show c.table.lookup c.next = none from hc.resolve_next hfew,
        hc.resolve_next hfew]
      simp [eq_comm]
    · rw [if_neg ht, Option.or_none]
      simp [Callbacks.resolve?, Ne.symm ht]

theorem unregister (hc : Counts h c) (t : Token) (a : Answer β) :
    Counts (h ++ [(.unregister t, a)]) (c.unregister t).2 := by
  have hissued : issued (h ++ [(.unregister t, a)]) = issued h :=
    (issued_concat _ _ _).trans (List.append_nil _)
  refine ⟨by rw [hissued]; exact hc.next, by rw [hissued]; exact hc.tokens,
    Lookup.nodup_keys_without hc.keys t, fun s g => ?_⟩
  rw [stands_concat, ← hc.resolves]
  change (c.table.filter fun e => !(e.1 == t)).lookup s = some g ↔ _
  rw [Lookup.lookup_without]
  by_cases hs : s = t
  · simp [hs]
  · simp [hs, Callbacks.resolve?, Ne.symm hs]

theorem clear (hc : Counts h c) (a : Answer β) : Counts (h ++ [(.clear, a)]) c.clear := by
  have hissued : issued (h ++ [(.clear, a)]) = issued h :=
    (issued_concat _ _ _).trans (List.append_nil _)
  refine ⟨by rw [hissued]; exact hc.next, by rw [hissued]; exact hc.tokens, List.nodup_nil,
    fun s g => ?_⟩
  rw [stands_concat]
  refine iff_of_false (fun hg => by cases hg) ?_
  rintro (⟨-, -, hne⟩ | ⟨he, -⟩)
  · exact hne rfl
  · cases he

theorem kept (hc : Counts h c) (a : Answer β) (hissued : issued [(cmd, a)] = [])
    (hcmd : ∀ t f, cmd ≠ .unregister t ∧ cmd ≠ .clear ∧ cmd ≠ .register f) :
    Counts (h ++ [(cmd, a)]) c := by
  have hissued : issued (h ++ [(cmd, a)]) = issued h := by
    rw [issued_concat, hissued, List.append_nil]
  refine ⟨by rw [hissued]; exact hc.next, by rw [hissued]; exact hc.tokens, hc.keys, fun t f => ?_⟩
  rw [stands_concat, hc.resolves]
  obtain ⟨hunregister, hclear, hregister⟩ := hcmd t f
  exact ⟨fun hs => .inl ⟨hs, hunregister, hclear⟩, fun hs => hs.elim And.left fun hs =>
    absurd hs.1 hregister⟩

theorem isSome_iff (hc : Counts h c) (t : Token) :
    (c.resolve? t).isSome = true ↔ ∃ f, Stands h t f := by
  rw [Option.isSome_iff_exists]
  exact exists_congr fun f => hc.resolves t f

theorem answered_invoke (hc : Counts h c) (t : Token) (args : List Value) :
    Answered h (.invoke t args) (c.apply (.invoke t args)).1 := by
  have hasks := c.asks_start t args
  rw [Callbacks.apply]
  cases hr : c.start t args with
  | ok i =>
    rw [hr] at hasks
    cases hasks with
    | call _ f _ hf hn => exact .started t f args ((hc.resolves t f).1 hf) hn
  | error e =>
    rw [hr] at hasks
    cases hasks with
    | noList _ hv => exact absurd rfl (hv _)
    | noCallback _ _ hv => exact absurd rfl (hv t)
    | unresolved _ _ hf =>
      exact .unresolved t args fun f hs => by rw [(hc.resolves t f).2 hs] at hf; cases hf
    | mismatch _ f k _ hf hk hn => exact .mismatch t f k args ((hc.resolves t f).1 hf) hk hn

theorem apply_invoke (c : Callbacks β) (t : Token) (args : List Value) :
    (c.apply (.invoke t args)).2 = c ∧
      issued [(.invoke t args, (c.apply (.invoke t args)).1)] = [] := by
  rw [Callbacks.apply]
  cases c.start t args <;> exact ⟨rfl, rfl⟩

/-- One command is answered by what was done before and keeps the table in step. -/
theorem apply (hc : Counts h c) (cmd : Command β)
    (hfew : (issued (h ++ [(cmd, (c.apply cmd).1)])).length < UInt64.size) :
    Answered h cmd (c.apply cmd).1 ∧ Counts (h ++ [(cmd, (c.apply cmd).1)]) (c.apply cmd).2 := by
  cases cmd with
  | register f =>
    have hfew : (issued h).length + 1 < UInt64.size := by
      rw [issued_concat, List.length_append] at hfew
      exact hfew
    exact ⟨.token f _ (hc.fresh hfew), hc.register f hfew⟩
  | unregister t => exact ⟨.flag t _ (hc.isSome_iff t), hc.unregister t _⟩
  | resolve t =>
    exact ⟨.resolved t _ fun f => hc.resolves t f,
      hc.kept _ rfl fun _ _ => ⟨nofun, nofun, nofun⟩⟩
  | invoke t args =>
    obtain ⟨hsame, hissued⟩ := apply_invoke c t args
    refine ⟨hc.answered_invoke t args, ?_⟩
    rw [hsame]
    exact hc.kept _ hissued fun _ _ => ⟨nofun, nofun, nofun⟩
  | clear => exact ⟨.cleared, hc.clear _⟩

end Counts

theorem counts_of_leads (hl : Leads empty h c) (hfew : (issued h).length < UInt64.size) :
    Faithful h ∧ Counts h c := by
  induction hl with
  | nil => exact ⟨.nil, .empty⟩
  | @concat h d cmd _ ih =>
    have hless : (issued h).length < UInt64.size := by
      rw [issued_concat, List.length_append] at hfew
      omega
    obtain ⟨hh, hc⟩ := ih hless
    obtain ⟨ha, hc⟩ := hc.apply cmd hfew
    exact ⟨hh.concat cmd _ ha, hc⟩

theorem honours_of_leads (hl : Leads empty h c) (hfew : (issued h).length < UInt64.size) :
    Honours h c := by
  obtain ⟨hh, hc⟩ := counts_of_leads hl hfew
  refine ⟨hc.increasing hfew, hh, hc.resolves, fun old e new t he ht hcmd => ?_,
    c.table.map Prod.fst, hc.keys, List.length_map .., fun t => Lookup.lookup_isSome_iff_mem.symm⟩
  obtain ⟨cmd, a⟩ := e
  have hgone : ∀ f, ¬ Stands (old ++ [(cmd, a)]) t f := by
    intro f hs
    rcases stands_concat.1 hs with ⟨-, hunregister, hclear⟩ | ⟨rfl, -⟩
    · exact hcmd.elim hunregister hclear
    · exact hcmd.elim nofun nofun
  have hfront : t ∈ issued (old ++ [(cmd, a)]) := issued_concat _ _ _ ▸ List.mem_append_left _ ht
  have hrest : h = (old ++ [(cmd, a)]) ++ new := by rw [he, List.append_assoc]; rfl
  refine Option.eq_none_iff_forall_ne_some.2 fun f hf => ?_
  exact hh.stays_gone hrest hfront hgone f ((hc.resolves t f).1 hf)

/-- Something to do to a table: a command, what the body of the callback does if it starts one, and
then the rest. -/
inductive Doing (β : Type) where
  | done
  | next (cmd : Command β) (body rest : Doing β)

/-- All that is done and the table that it leaves. A body runs on the table as it is when its
callback is started. -/
def Doing.run : Doing β → Callbacks β → List (Deed β) × Callbacks β
  | .done, c => ([], c)
  | .next cmd body rest, c =>
    let (a, c) := c.apply cmd
    let (inner, c) :=
      match a with
      | .started _ => body.run c
      | _ => ([], c)
    let (later, c) := rest.run c
    ((cmd, a) :: inner ++ later, c)

theorem Doing.leads_run (d : Doing β) (c : Callbacks β) : Leads c (d.run c).1 (d.run c).2 := by
  induction d generalizing c with
  | done => exact .nil
  | next cmd body rest ihbody ihrest =>
    have hcmd := Leads.single c cmd
    rw [Doing.run]
    generalize c.apply cmd = r at hcmd
    obtain ⟨a, d⟩ := r
    cases a with
    | started i => exact (hcmd.trans (ihbody d)).trans (ihrest _)
    | _ => exact hcmd.trans (ihrest d)

end CallExchange.Callbacks
