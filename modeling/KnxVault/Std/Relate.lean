import KnxVault.Std.Run

/-!
# Two computations side by side

Two fallible computations agree if they fail with the same error or return values
that are related. The rules here follow the shape of the computation, so that what
a program does on two states is compared step by step.
-/

namespace KnxVault.Std

variable {ε ε' α β γ δ : Type}

/-- The same error, or values as `Same` says. -/
inductive Agree (Same : α → β → Prop) : Except ε α → Except ε β → Prop
  | error (err : ε) : Agree Same (.error err) (.error err)
  | ok {first : α} {second : β} (same : Same first second) : Agree Same (.ok first) (.ok second)

namespace Agree

variable {Same Weaker : α → β → Prop} {Next : γ → δ → Prop} {first : Except ε α}
  {second : Except ε β}

theorem bind {rest : α → Except ε γ} {rest' : β → Except ε δ} (agree : Agree Same first second)
    (later : ∀ value value', Same value value' → Agree Next (rest value) (rest' value')) :
    Agree Next (first >>= rest) (second >>= rest') := by
  cases agree with
  | error err => exact .error err
  | ok same => exact later _ _ same

theorem mapError (convert : ε → ε') (agree : Agree Same first second) :
    Agree Same (first.mapError convert) (second.mapError convert) := by
  cases agree with
  | error err => exact .error (convert err)
  | ok same => exact .ok same

/-- Equal results agree. -/
theorem of_eq {result other : Except ε α} (same : result = other) : Agree Eq result other := by
  subst same
  cases result with
  | error err => exact .error err
  | ok value => exact .ok rfl

theorem cases (agree : Agree Same first second) :
    (∃ err, first = .error err ∧ second = .error err) ∨
    ∃ value value', first = .ok value ∧ second = .ok value' ∧ Same value value' := by
  cases agree with
  | error err => exact .inl ⟨err, rfl, rfl⟩
  | ok same => exact .inr ⟨_, _, rfl, rfl, same⟩

end Agree

end KnxVault.Std
