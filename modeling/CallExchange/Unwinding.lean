set_option autoImplicit false

/-!
# Unwinding

Code on either side of the boundary may abort in the middle and unwind to whoever called it. A
computation on a state therefore returns, or unwinds with what it aborted with, or, since callbacks
may call each other without end, exhausts the depth that it was given. The state is kept in
both of the first cases: what was done before the abort stays done.
-/

namespace CallExchange

inductive Panic where
  | text (message : String)
  /-- Something that is no text. -/
  | untyped
deriving DecidableEq

namespace Panic

def message : Panic → String
  | text m => m
  | untyped => "non-string panic payload"

/-- The abort of a timed wait whose deadline is past the end of the clock. -/
def noDeadline : Panic := text "overflow when adding duration to instant"

end Panic

inductive Outcome (σ α : Type) where
  | returned (a : α) (s : σ)
  | unwound (p : Panic) (s : σ)
  | exhausted

namespace Outcome

variable {σ τ α β : Type}

/-- Goes on with a returned result; an abort or an exhausted computation stays what it is. -/
def bind (o : Outcome σ α) (f : α → σ → Outcome σ β) : Outcome σ β :=
  match o with
  | returned a s => f a s
  | unwound p s => unwound p s
  | exhausted => exhausted

def map (f : α → β) (g : σ → τ) : Outcome σ α → Outcome τ β
  | returned a s => returned (f a) (g s)
  | unwound p s => unwound p (g s)
  | exhausted => exhausted

/-- Stops an abort: it becomes a result like any other. -/
def caught : Outcome σ α → Outcome σ (Except Panic α)
  | returned a s => returned (.ok a) s
  | unwound p s => returned (.error p) s
  | exhausted => exhausted

end Outcome

end CallExchange
