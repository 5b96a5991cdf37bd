/-!
Steps that change a state and may stop.

An action on states `σ` ends with a value, fails with an error `ε`, or is halted: a walk along a
chain that native memory closed into a ring, a nesting of calls deeper than the bound it was given,
or a use of addresses beyond the last one. A failure keeps the state it was reached in, so that what
was done before it stays visible to whoever handles it.
-/

set_option autoImplicit false

namespace ForeignCall

inductive Halt where
  | endless
  | exhausted
  deriving Repr, DecidableEq

inductive Stop (ε : Type) where
  | error (e : ε)
  /-- It was given up; nothing handles that. -/
  | halt (h : Halt)
  deriving Repr, DecidableEq

abbrev Action (ε σ α : Type) := EStateM (Stop ε) σ α

namespace Action

variable {ε ε' σ τ α : Type}

def fail (e : ε) : Action ε σ α := throw (.error e)

def endless : Action ε σ α := throw (.halt .endless)

def exhausted : Action ε σ α := throw (.halt .exhausted)

/-- Runs `x` and hands its failure on as a value; the state is the one `x` left. -/
def attempt (x : Action ε σ α) : Action ε' σ (Except ε α) := fun s =>
  match x s with
  | .ok a s => .ok (.ok a) s
  | .error (.error e) s => .ok (.error e) s
  | .error (.halt h) s => .error (.halt h) s

def ofExcept (r : Except ε α) : Action ε σ α :=
  match r with
  | .ok a => pure a
  | .error e => fail e

def mapError (f : ε → ε') (x : Action ε σ α) : Action ε' σ α := fun s =>
  match x s with
  | .ok a s => .ok a s
  | .error (.error e) s => .error (.error (f e)) s
  | .error (.halt h) s => .error (.halt h) s

end Action

end ForeignCall
