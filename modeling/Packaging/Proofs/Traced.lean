import Packaging.Traced

/-! Outcomes and traces of computations put together from others. The outcome of a sequence
depends on the outcomes of its parts alone.
-/

namespace Packaging.Traced

variable {τ ε α β : Type}

/-- A sequence whose first part succeeds silently is its second part. -/
theorem silent_bind {first : Traced τ ε α} {value : α} (silent : first = ⟨[], .ok value⟩)
    (next : α → Traced τ ε β)
    : first >>= next = next value := by
  have success : first.outcome = .ok value := by rw [silent]
  rw [bind_of_ok next success]
  simp [silent]

theorem liftM_ok_bind (value : α) (next : α → Traced τ ε β)
    : (liftM (Except.ok value : Except ε α) : Traced τ ε α) >>= next = next value :=
  silent_bind rfl next

theorem liftM_error_bind (error : ε) (next : α → Traced τ ε β)
    : (liftM (Except.error error : Except ε α) : Traced τ ε α) >>= next = ⟨[], .error error⟩ :=
  rfl

/-- A sequence succeeds just when its first part and then its second part do. -/
theorem outcome_bind_eq_ok {first : Traced τ ε α} {next : α → Traced τ ε β} {result : β}
    : (first >>= next).outcome = .ok result
      ↔ ∃ value, first.outcome = .ok value ∧ (next value).outcome = .ok result := by
  cases found : first.outcome with
  | error error => simp [bind_of_error next found]
  | ok value => simp [bind_of_ok next found]

/-- A sequence fails just when its first part does, or when its second part does after a success
of the first.
-/
theorem outcome_bind_eq_error {first : Traced τ ε α} {next : α → Traced τ ε β} {error : ε}
    : (first >>= next).outcome = .error error
      ↔ first.outcome = .error error
        ∨ ∃ value, first.outcome = .ok value ∧ (next value).outcome = .error error := by
  cases found : first.outcome with
  | error error => simp [bind_of_error next found]
  | ok value => simp [bind_of_ok next found]

/-- A value that is made into another one at the end is so in the outcome, and nothing else
happens.
-/
theorem bind_pure (first : Traced τ ε α) (f : α → β)
    : (first >>= fun value => Pure.pure (f value)) = ⟨first.trace, first.outcome.map f⟩ := by
  cases found : first.outcome with
  | error error =>
      rw [bind_of_error _ found]
      rfl
  | ok value =>
      rw [bind_of_ok _ found, trace_pure, List.append_nil]
      rfl

theorem outcome_liftM (result : Except ε α)
    : (liftM result : Traced τ ε α).outcome = result :=
  rfl

theorem outcome_mapError {δ : Type} (f : ε → δ) (first : Traced τ ε α)
    : (first.mapError f).outcome = first.outcome.mapError f :=
  rfl

/-- A failure of another form comes from a failure. -/
theorem outcome_mapError_eq_error {δ : Type} {f : ε → δ} {first : Traced τ ε α} {error : δ}
    : (first.mapError f).outcome = .error error
      ↔ ∃ cause, first.outcome = .error cause ∧ f cause = error := by
  show first.outcome.mapError f = .error error ↔ _
  cases first.outcome with
  | error cause =>
      show (.error (f cause) : Except δ α) = .error error ↔ _
      simp
  | ok value =>
      show (.ok value : Except δ α) = .error error ↔ _
      simp

theorem outcome_mapError_eq_ok {δ : Type} {f : ε → δ} {first : Traced τ ε α} {value : α}
    : (first.mapError f).outcome = .ok value ↔ first.outcome = .ok value := by
  show first.outcome.mapError f = .ok value ↔ _
  cases first.outcome with
  | error cause =>
      show (.error (f cause) : Except δ α) = .ok value ↔ _
      simp
  | ok other =>
      show (.ok other : Except δ α) = .ok value ↔ _
      simp

theorem tryCatch_of_ok {first : Traced τ ε α} {value : α} (handle : ε → Traced τ ε α)
    (success : first.outcome = .ok value)
    : tryCatch first handle = first := by
  simp only [tryCatch, tryCatchThe, MonadExceptOf.tryCatch, success]

/-- After a failure the handler goes on. -/
theorem tryCatch_of_error {first : Traced τ ε α} {error : ε} (handle : ε → Traced τ ε α)
    (failure : first.outcome = .error error)
    : tryCatch first handle
      = ⟨first.trace ++ (handle error).trace, (handle error).outcome⟩ := by
  simp only [tryCatch, tryCatchThe, MonadExceptOf.tryCatch, failure]

theorem outcome_tryCatch_of_error {first : Traced τ ε α} {error : ε}
    (handle : ε → Traced τ ε α) (failure : first.outcome = .error error)
    : (tryCatch first handle).outcome = (handle error).outcome := by
  rw [tryCatch_of_error handle failure]

/-- The outcome of a sequence is that of its parts in sequence. -/
theorem outcome_bind (first : Traced τ ε α) (next : α → Traced τ ε β)
    : (first >>= next).outcome = first.outcome >>= fun value => (next value).outcome := by
  cases found : first.outcome with
  | error error =>
      rw [bind_of_error next found]
      rfl
  | ok value =>
      rw [bind_of_ok next found]
      rfl

-----------------------------------------------------------------------------------------
-- Entries of a trace
-----------------------------------------------------------------------------------------

/-- Everything that a computation leaves in its trace passes a test. -/
def Leaves (test : τ → Prop) (first : Traced τ ε α) : Prop :=
  ∀ entry ∈ first.trace, test entry

section

variable {test : τ → Prop} {first : Traced τ ε α}

theorem leaves_pure (value : α)
    : (Pure.pure value : Traced τ ε α).Leaves test :=
  nofun

theorem leaves_throw (error : ε)
    : (throw error : Traced τ ε α).Leaves test :=
  nofun

theorem leaves_liftM (result : Except ε α)
    : (liftM result : Traced τ ε α).Leaves test :=
  nofun

theorem leaves_note {entry : τ} (passes : test entry)
    : (note entry : Traced τ ε Unit).Leaves test := by
  intro other member
  rwa [List.mem_singleton.mp member]

theorem Leaves.bind (before : first.Leaves test) {next : α → Traced τ ε β}
    (after : ∀ value, first.outcome = .ok value → (next value).Leaves test)
    : (first >>= next).Leaves test := by
  cases found : first.outcome with
  | error error =>
      rw [bind_of_error next found]
      exact before
  | ok value =>
      rw [bind_of_ok next found]
      intro entry member
      rcases List.mem_append.mp member with early | late
      · exact before entry early
      · exact after value found entry late

theorem Leaves.mapError {δ : Type} (before : first.Leaves test) (f : ε → δ)
    : (first.mapError f).Leaves test :=
  before

end

-----------------------------------------------------------------------------------------
-- Parts in turn
-----------------------------------------------------------------------------------------

/-- A computation without its value. -/
def void (first : Traced τ ε α) : Traced τ ε Unit :=
  ⟨first.trace, first.outcome.map fun _ => ()⟩

/-- Computations one after another, up to the first that fails. -/
def inTurn : List (Traced τ ε Unit) → Traced τ ε Unit
  | [] => Pure.pure ()
  | first :: rest => first >>= fun _ => inTurn rest

theorem outcome_void_eq_ok {first : Traced τ ε α}
    : first.void.outcome = .ok () ↔ ∃ value, first.outcome = .ok value := by
  unfold void
  cases first.outcome <;> simp [Except.map]

theorem outcome_void_eq_error {first : Traced τ ε α} {error : ε}
    : first.void.outcome = .error error ↔ first.outcome = .error error := by
  unfold void
  cases first.outcome <;> simp [Except.map]

/-- A sequence whose second part does not hang on the value of the first one is, without its value,
a sequence of both without theirs.
-/
theorem void_bind (first : Traced τ ε α) {next : α → Traced τ ε β} {rest : Traced τ ε Unit}
    (same : ∀ value, (next value).void = rest)
    : (first >>= next).void = first.void >>= fun _ => rest := by
  cases found : first.outcome with
  | error error =>
      rw [bind_of_error next found, bind_of_error _ (outcome_void_eq_error.mpr found)]
      rfl
  | ok value =>
      rw [bind_of_ok next found, bind_of_ok _ (outcome_void_eq_ok.mpr ⟨value, found⟩),
        ← same value]
      rfl

/-- After parts that succeed, the others follow. By induction over the former. -/
theorem inTurn_append {before : List (Traced τ ε Unit)}
    (passed : ∀ part ∈ before, part.outcome = .ok ()) (rest : List (Traced τ ε Unit))
    : inTurn (before ++ rest)
      = ⟨before.flatMap trace ++ (inTurn rest).trace, (inTurn rest).outcome⟩ := by
  induction before with
  | nil => rfl
  | cons first others ih =>
      obtain ⟨success, further⟩ := List.forall_mem_cons.mp passed
      rw [List.cons_append, inTurn, bind_of_ok _ success, ih further, List.flatMap_cons,
        List.append_assoc]

/-- Either all parts succeed or one of them is the first that fails. By induction over them. -/
theorem succeed_or_first_fails (parts : List (Traced τ ε Unit))
    : (∀ part ∈ parts, part.outcome = .ok ())
      ∨ ∃ before part after error,
          parts = before ++ part :: after
          ∧ (∀ earlier ∈ before, earlier.outcome = .ok ())
          ∧ part.outcome = .error error := by
  induction parts with
  | nil => exact .inl nofun
  | cons first rest ih =>
      cases found : first.outcome with
      | error error => exact .inr ⟨[], first, rest, error, rfl, nofun, found⟩
      | ok _ =>
          rcases ih with all | ⟨before, part, after, error, rfl, passed, failed⟩
          · exact .inl (List.forall_mem_cons.mpr ⟨found, all⟩)
          · exact .inr ⟨first :: before, part, after, error, rfl,
              List.forall_mem_cons.mpr ⟨found, passed⟩, failed⟩

/-- The first part that fails ends the run. -/
theorem inTurn_of_error {before after : List (Traced τ ε Unit)} {part : Traced τ ε Unit}
    {error : ε} (passed : ∀ earlier ∈ before, earlier.outcome = .ok ())
    (failed : part.outcome = .error error)
    : inTurn (before ++ part :: after)
      = ⟨(before ++ [part]).flatMap trace, .error error⟩ := by
  rw [inTurn_append passed, inTurn, bind_of_error _ failed, List.flatMap_append,
    List.flatMap_singleton]

end Packaging.Traced

-----------------------------------------------------------------------------------------
-- Two runs
-----------------------------------------------------------------------------------------

namespace Packaging

variable {ε α β γ δ : Type}

/-- Two runs end alike: both succeed with values that are related, or both fail with the same error.
-/
inductive EndAlike (related : α → β → Prop) : Except ε α → Except ε β → Prop
  | ok {left : α} {right : β} (values : related left right)
    : EndAlike related (.ok left) (.ok right)
  | error (error : ε) : EndAlike related (.error error) (.error error)

namespace EndAlike

theorem refl (result : Except ε α)
    : EndAlike (· = ·) result result := by
  cases result with
  | error error => exact .error error
  | ok value => exact .ok rfl

theorem eq {left right : Except ε α} (alike : EndAlike (· = ·) left right)
    : left = right := by
  cases alike with
  | ok values => rw [values]
  | error => rfl

/-- Runs that go on alike from related values end alike. -/
theorem bind {related : α → β → Prop} {relatedNext : γ → δ → Prop} {left : Except ε α}
    {right : Except ε β} {leftNext : α → Except ε γ} {rightNext : β → Except ε δ}
    (alike : EndAlike related left right)
    (next
      : ∀ first second, left = .ok first → right = .ok second → related first second
          → EndAlike relatedNext (leftNext first) (rightNext second))
    : EndAlike relatedNext (left >>= leftNext) (right >>= rightNext) := by
  cases alike with
  | ok values => exact next _ _ rfl rfl values
  | error error => exact .error error

end EndAlike

end Packaging
