import Mathlib.Tactic.Common

namespace SoftEther.Lib

/-!
# Computations that return early or throw

The body of a function as a chain of computations: each goes on with a value, returns from the
function, or throws.

* `CallResult` — what a call comes to: it returns, or it throws;
* `Flow`, `Flow.bind` — a step of the body, and one after the other;
* `CallResult.attempt` — a call in a `try` block;
* `Flow.Meets` — what holds however a computation ends, with one rule for each way to build one.
-/

variable {ε ρ α β : Type*}

/-- What a call comes to. -/
inductive CallResult (ε α : Type*) where
  | returned (value : α)
  | threw (error : ε)
  deriving DecidableEq

/-- A step of the body of a function: on with a value, out with a result, or out with a throw. -/
inductive Flow (ε ρ α : Type*) where
  | next (value : α)
  | exit (result : ρ)
  | raised (error : ε)

namespace Flow

/-- One computation after the other. -/
def bind (x : Flow ε ρ α) (f : α → Flow ε ρ β) : Flow ε ρ β :=
  match x with
  | next a => f a
  | exit r => exit r
  | raised e => raised e

@[simp] theorem next_bind (a : α) (f : α → Flow ε ρ β) : (next a).bind f = f a := rfl

/-- `R` of what is thrown, `E` of an early result, `P` of the value it goes on with. -/
def Meets (R : ε → Prop) (E : ρ → Prop) (P : α → Prop) : Flow ε ρ α → Prop
  | next a => P a
  | exit r => E r
  | raised e => R e

variable {R : ε → Prop} {E : ρ → Prop} {P : β → Prop}

@[simp] theorem meets_next {P : α → Prop} {a : α} :
    (next a : Flow ε ρ α).Meets R E P ↔ P a := Iff.rfl

@[simp] theorem meets_exit {P : α → Prop} {r : ρ} :
    (exit r : Flow ε ρ α).Meets R E P ↔ E r := Iff.rfl

@[simp] theorem meets_raised {P : α → Prop} {e : ε} :
    (raised e : Flow ε ρ α).Meets R E P ↔ R e := Iff.rfl

/-- **Sequence.** What holds of both is what holds of the first, the second taken for its value. -/
@[simp] theorem meets_bind {x : Flow ε ρ α} {f : α → Flow ε ρ β} :
    (x.bind f).Meets R E P ↔ x.Meets R E fun a => (f a).Meets R E P := by
  cases x <;> rfl

end Flow

namespace CallResult

/-- A call outside any `try`. -/
def flow : CallResult ε α → Flow ε ρ α
  | returned a => .next a
  | threw e => .raised e

/-- `try { call } catch`: `handler` says what is done with what is thrown. -/
def attempt (c : CallResult ε α) (handler : ε → Flow ε ρ α) : Flow ε ρ α :=
  match c with
  | returned a => .next a
  | threw e => handler e

@[simp] theorem flow_returned (a : α) :
    ((returned a : CallResult ε α).flow : Flow ε ρ α) = .next a := rfl

@[simp] theorem attempt_returned (a : α) (handler : ε → Flow ε ρ α) :
    (returned a).attempt handler = .next a := rfl

/-- `R` of what a call throws, `P` of what it returns. -/
def Meets (R : ε → Prop) (P : α → Prop) : CallResult ε α → Prop
  | returned a => P a
  | threw e => R e

variable {R : ε → Prop} {E : ρ → Prop} {P : α → Prop} {c : CallResult ε α}

@[simp] theorem meets_returned {a : α} : (returned a : CallResult ε α).Meets R P ↔ P a := Iff.rfl

@[simp] theorem meets_threw {e : ε} : (threw e : CallResult ε α).Meets R P ↔ R e := Iff.rfl

@[simp] theorem meets_flow : (c.flow : Flow ε ρ α).Meets R E P ↔ c.Meets R P := by
  cases c <;> rfl

@[simp] theorem meets_attempt {handler : ε → Flow ε ρ α} :
    (c.attempt handler).Meets R E P ↔ c.Meets (fun e => (handler e).Meets R E P) P := by
  cases c <;> rfl

end CallResult

end SoftEther.Lib
