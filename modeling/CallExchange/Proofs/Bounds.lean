import CallExchange.Stage

set_option autoImplicit false

/-!
# Bounds of scripts

A run of a script that ends below its bound ends the same way below every larger one, and so does a
drain.
-/

namespace CallExchange

namespace Outcome

variable {σ α β : Type}

/-- One computation goes no further than another: it is exhausted, or both end in the same way. -/
def Within (o o' : Outcome σ α) : Prop := o = .exhausted ∨ o = o'

namespace Within

variable {o o' : Outcome σ α}

theorem refl (o : Outcome σ α) : o.Within o := .inr rfl

theorem eq (h : o.Within o') (ho : o ≠ .exhausted) : o = o' := h.resolve_left ho

theorem map {τ : Type} (h : o.Within o') (f : α → β) (g : σ → τ) :
    (o.map f g).Within (o'.map f g) := by
  rcases h with rfl | rfl
  · exact .inl rfl
  · exact .refl _

theorem bind {f f' : α → σ → Outcome σ β} (h : o.Within o') (hf : ∀ a s, (f a s).Within (f' a s)) :
    (o.bind f).Within (o'.bind f') := by
  rcases h with rfl | rfl
  · exact .inl rfl
  · cases o with
    | returned a s => exact hf a s
    | unwound | exhausted => exact .refl _

end Within

end Outcome

namespace Stage

variable {invoke invoke' : Value → Act (Except Fault Unit)} {drain drain' : Act (Except Fault Nat)}

/-- Only a call and a drain depend on how far the scripts that they start may go. -/
theorem run_within (hinvoke : ∀ v st, (invoke v st).Within (invoke' v st))
    (hdrain : ∀ st, (drain st).Within (drain' st)) (own : Option PortId) (a : Action) (st : Stage) :
    (run invoke drain own a st).Within (run invoke' drain' own a st) := by
  cases a with
  | invoke message =>
    rw [run, run, whileUp, whileUp]
    split
    · exact .refl _
    · exact (hinvoke message st).map _ _
  | drain =>
    rw [run, run, whileUp, whileUp]
    split
    · exact .refl _
    · exact (hdrain st).map _ _
  | _ => exact .refl _

theorem runScript_within (hinvoke : ∀ v st, (invoke v st).Within (invoke' v st))
    (hdrain : ∀ st, (drain st).Within (drain' st)) (own : Option PortId) (script : Script) :
    ∀ st, (runScript invoke drain own script st).Within
      (runScript invoke' drain' own script st) := by
  induction script with
  | nil => exact fun _ => .refl _
  | cons a script ih => exact fun st => (run_within hinvoke hdrain own a st).bind fun r st => ih _

theorem drainWith_within (hinvoke : ∀ v st, (invoke v st).Within (invoke' v st)) {b b' : Nat}
    (hb : b ≤ b') :
    ∀ n st, (drainWith invoke b n st).Within (drainWith invoke' b' n st) := by
  induction b generalizing b' with
  | zero => exact fun _ _ => .inl rfl
  | succ b ih =>
    obtain ⟨c, rfl⟩ : ∃ c, b' = c + 1 := ⟨b' - 1, by omega⟩
    intro n st
    rw [drainWith, drainWith]
    split
    · exact .refl _
    · refine (hinvoke _ _).bind fun r st => ?_
      cases r with
      | ok => exact ih (Nat.le_of_succ_le_succ hb) _ _
      | error => exact .refl _

theorem invoke_within {b b' : Nat} (hb : b ≤ b') :
    ∀ v st, (Stage.invoke b v st).Within (Stage.invoke b' v st) := by
  induction b generalizing b' with
  | zero => exact fun _ _ => .inl rfl
  | succ b ih =>
    obtain ⟨c, rfl⟩ : ∃ c, b' = c + 1 := ⟨b' - 1, by omega⟩
    have hc := Nat.le_of_succ_le_succ hb
    intro v st
    rw [Stage.invoke, Stage.invoke]
    split
    · exact .refl _
    · exact (runScript_within (ih hc) (drainWith_within (ih hc) hc 0) _ _ _).bind
        fun _ _ => .refl _

/-- Below which bound a call ends makes no difference. -/
theorem invoke_ends_alike {b b' : Nat} {v : Value} {st : Stage}
    (h : Stage.invoke b v st ≠ .exhausted) (h' : Stage.invoke b' v st ≠ .exhausted) :
    Stage.invoke b v st = Stage.invoke b' v st := by
  have hb := (invoke_within (Nat.le_max_left b b') v st).eq h
  have hb' := (invoke_within (Nat.le_max_right b b') v st).eq h'
  exact hb.trans hb'.symm

theorem drain_within {b b' : Nat} (hb : b ≤ b') (st : Stage) :
    (Stage.drain b st).Within (Stage.drain b' st) :=
  drainWith_within (invoke_within hb) hb 0 st

end Stage

end CallExchange
