import CallExchange.Fault
import CallExchange.Value

set_option autoImplicit false

/-!
# Callbacks

Managed functions by the tokens under which they were handed out. Tokens are counted up and never
used again. How many arguments a function takes is checked before it is started.
-/

namespace CallExchange

inductive Shape where
  | nullary
  | unary
  | binary
  | variadic
deriving DecidableEq

def Shape.arity : Shape → Option Nat
  | nullary => some 0
  | unary => some 1
  | binary => some 2
  | variadic => none

/-- What a function is given of `args`: the first ones, and null for each that is missing, or all of
them as they are. -/
def Shape.pass (s : Shape) (args : List Value) : List Value :=
  match s with
  | nullary => []
  | unary => [args[0]?.getD .null]
  | binary => [args[0]?.getD .null, args[1]?.getD .null]
  | variadic => args

structure Callable (β : Type) where
  shape : Shape
  body : β

structure Invocation (β : Type) where
  callable : Callable β
  args : List Value

namespace Callable

variable {β : Type}

/-- The function on `args`, if it takes that many. The token only labels the fault. -/
def start (f : Callable β) (t : Token) (args : List Value) : Except Fault (Invocation β) :=
  match f.shape.arity with
  | none => .ok ⟨f, f.shape.pass args⟩
  | some k =>
    if args.length = k then .ok ⟨f, f.shape.pass args⟩
    else .error (.arityMismatch t k args.length)

end Callable

structure Callbacks (β : Type) where
  next : Token
  table : List (Token × Callable β)

namespace Callbacks

variable {β : Type}

def empty : Callbacks β := ⟨⟨1⟩, []⟩

def size (c : Callbacks β) : Nat := c.table.length
def resolve? (c : Callbacks β) (t : Token) : Option (Callable β) := c.table.lookup t

def register (c : Callbacks β) (f : Callable β) : Token × Callbacks β :=
  (c.next, ⟨⟨c.next.raw + 1⟩, c.table ++ [(c.next, f)]⟩)

def unregister (c : Callbacks β) (t : Token) : Bool × Callbacks β :=
  ((c.resolve? t).isSome, { c with table := c.table.filter fun e => !(e.1 == t) })

def clear (c : Callbacks β) : Callbacks β := { c with table := [] }

def start (c : Callbacks β) (t : Token) (args : List Value) : Except Fault (Invocation β) :=
  match c.resolve? t with
  | none => .error (.unresolvedCallback t)
  | some f => f.start t args

/-- The call that a message asks for: a list of a callback and its arguments. -/
def read (c : Callbacks β) (message : Value) : Except Fault (Invocation β) :=
  match message with
  | .list (.callback t :: args) => c.start t args
  | .list (v :: _) =>
    .error (.malformedCallback ("first element is " ++ v.kind ++ ", not a callback"))
  | .list [] => .error (.malformedCallback "empty message")
  | v => .error (.malformedCallback ("expected array, got " ++ v.kind))

inductive Command (β : Type) where
  | register (f : Callable β)
  | unregister (t : Token)
  | resolve (t : Token)
  | invoke (t : Token) (args : List Value)
  | clear

inductive Answer (β : Type) where
  | token (t : Token)
  | flag (b : Bool)
  | resolved (f : Option (Callable β))
  | refused (f : Fault)
  | started (i : Invocation β)
  | cleared

def apply (c : Callbacks β) : Command β → Answer β × Callbacks β
  | .register f => let (t, c) := c.register f; (.token t, c)
  | .unregister t => let (b, c) := c.unregister t; (.flag b, c)
  | .resolve t => (.resolved (c.resolve? t), c)
  | .invoke t args =>
    match c.start t args with
    | .error f => (.refused f, c)
    | .ok i => (.started i, c)
  | .clear => (.cleared, c.clear)

end Callbacks

end CallExchange
