/-!
# Outcomes

An operation that changes a value may fail, and what it leaves behind matters in both cases. An
outcome is the answer or the error together with the value afterwards, so that "a failed call
changes nothing" is a statement that can hold or fail. Outcomes are the results of `EStateM`
programs, and an operation written as a function from a value to an outcome is such a program.
-/

namespace JvmEmit

/-- An answer or an error, and the state left behind. -/
abbrev Outcome (ε σ α : Type) :=
  EStateM.Result ε σ α

namespace Outcome

variable {ε ε' σ σ' α : Type}

/-- The state left behind, whether the operation succeeded or failed. -/
def state : Outcome ε σ α → σ
  | .ok _ state => state
  | .error _ state => state

/-- The answer or the error, without the state. -/
def toExcept : Outcome ε σ α → Except ε α
  | .ok answer _ => .ok answer
  | .error cause _ => .error cause

/-- The outcome of the same operation on a part of a larger state, with its errors wrapped. -/
def lift (wrap : ε → ε') (embed : σ → σ') : Outcome ε σ α → Outcome ε' σ' α
  | .ok answer state => .ok answer (embed state)
  | .error cause state => .error (wrap cause) (embed state)

/-- The outcome of an operation that only looks at the state. -/
def ofExcept (state : σ) : Except ε α → Outcome ε σ α
  | .ok answer => .ok answer state
  | .error cause => .error cause state

@[simp]
theorem state_ok (answer : α) (state : σ) :
    Outcome.state (.ok answer state : Outcome ε σ α) = state :=
  rfl

@[simp]
theorem state_error (cause : ε) (state : σ) :
    Outcome.state (.error cause state : Outcome ε σ α) = state :=
  rfl

@[simp]
theorem toExcept_ok (answer : α) (state : σ) :
    Outcome.toExcept (.ok answer state : Outcome ε σ α) = .ok answer :=
  rfl

@[simp]
theorem toExcept_error (cause : ε) (state : σ) :
    Outcome.toExcept (.error cause state : Outcome ε σ α) = .error cause :=
  rfl

@[simp]
theorem state_lift (wrap : ε → ε') (embed : σ → σ') (outcome : Outcome ε σ α) :
    Outcome.state (outcome.lift wrap embed) = embed (Outcome.state outcome) := by
  cases outcome <;> rfl

@[simp]
theorem toExcept_lift (wrap : ε → ε') (embed : σ → σ') (outcome : Outcome ε σ α) :
    Outcome.toExcept (outcome.lift wrap embed) = (Outcome.toExcept outcome).mapError wrap := by
  cases outcome <;> rfl

theorem lift_eq_ok {wrap : ε → ε'} {embed : σ → σ'} {outcome : Outcome ε σ α} {answer : α}
    {after : σ'} (answered : outcome.lift wrap embed = .ok answer after) :
    ∃ state, outcome = .ok answer state ∧ after = embed state := by
  cases outcome with
  | ok answer state =>
      cases answered
      exact ⟨state, rfl, rfl⟩
  | error cause state => cases answered

@[simp]
theorem state_ofExcept (state : σ) (result : Except ε α) :
    Outcome.state (ofExcept state result) = state := by
  cases result <;> rfl

@[simp]
theorem toExcept_ofExcept (state : σ) (result : Except ε α) :
    Outcome.toExcept (ofExcept state result) = result := by
  cases result <;> rfl

end Outcome

end JvmEmit
