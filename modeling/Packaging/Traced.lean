/-! Computations that leave a trace and may fail. The trace up to a failure is kept.
-/

namespace Packaging

/-- What happened, in order, and how it ended. -/
structure Traced (τ ε α : Type) where
  trace : List τ
  outcome : Except ε α

namespace Traced

variable {τ ε α β : Type}

def pure (value : α) : Traced τ ε α :=
  ⟨[], .ok value⟩

def fail (error : ε) : Traced τ ε α :=
  ⟨[], .error error⟩

/-- Run `next` on the value after what happened before. -/
def bind (first : Traced τ ε α) (next : α → Traced τ ε β) : Traced τ ε β :=
  match first.outcome with
  | .error error => ⟨first.trace, .error error⟩
  | .ok value => ⟨first.trace ++ (next value).trace, (next value).outcome⟩

instance : Monad (Traced τ ε) where
  pure := Traced.pure
  bind := Traced.bind

instance : MonadExceptOf ε (Traced τ ε) where
  throw := Traced.fail
  tryCatch first handle :=
    match first.outcome with
    | .ok _ => first
    | .error error => ⟨first.trace ++ (handle error).trace, (handle error).outcome⟩

def note (entry : τ) : Traced τ ε Unit :=
  ⟨[entry], .ok ()⟩

def ofExcept (outcome : Except ε α) : Traced τ ε α :=
  ⟨[], outcome⟩

instance : MonadLift (Except ε) (Traced τ ε) where
  monadLift := ofExcept

/-- The same computation with another form of error. -/
def mapError {δ : Type} (f : ε → δ) (first : Traced τ ε α) : Traced τ δ α :=
  ⟨first.trace, first.outcome.mapError f⟩

/-- The same computation with another form of trace. -/
def mapTrace {σ : Type} (f : τ → σ) (first : Traced τ ε α) : Traced σ ε α :=
  ⟨first.trace.map f, first.outcome⟩

/-- The outcome as a value, so that what follows sees a failure. -/
def attempt {δ : Type} (first : Traced τ ε α) : Traced τ δ (Except ε α) :=
  ⟨first.trace, .ok first.outcome⟩

@[simp] theorem trace_pure (value : α)
    : (Pure.pure value : Traced τ ε α).trace = [] :=
  rfl

@[simp] theorem outcome_pure (value : α)
    : (Pure.pure value : Traced τ ε α).outcome = .ok value :=
  rfl

/-- A run after a success continues both the trace and the outcome. -/
theorem bind_of_ok {first : Traced τ ε α} {value : α} (next : α → Traced τ ε β)
    (h : first.outcome = .ok value)
    : first >>= next = ⟨first.trace ++ (next value).trace, (next value).outcome⟩ := by
  show Traced.bind first next = _
  simp [Traced.bind, h]

/-- A failure ends the run with the trace so far. -/
theorem bind_of_error {first : Traced τ ε α} {error : ε} (next : α → Traced τ ε β)
    (h : first.outcome = .error error)
    : first >>= next = ⟨first.trace, .error error⟩ := by
  show Traced.bind first next = _
  simp [Traced.bind, h]

end Traced

end Packaging
