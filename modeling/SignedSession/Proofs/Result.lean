import SignedSession.Log

/-!
# Results of computations in steps

A computation of several steps gives a value exactly when each of its steps does.  In a `Logged`
computation a step that gives a value and reports nothing can be left out.
-/

set_option autoImplicit false

namespace SignedSession

section Steps

variable {ε α β : Type}

@[simp] theorem ok_bind (value : α) (next : α → Except ε β) :
    (Except.ok value >>= next) = next value := rfl

@[simp] theorem error_bind (error : ε) (next : α → Except ε β) :
    (Except.error error >>= next) = .error error := rfl

theorem bind_eq_ok_iff {first : Except ε α} {next : α → Except ε β} {value : β} :
    (first >>= next) = .ok value ↔ ∃ middle, first = .ok middle ∧ next middle = .ok value := by
  cases first with
  | error error => simp
  | ok middle => simp

end Steps

namespace Logged

variable {α β : Type}

@[simp] theorem ok_bind (value : α) (next : α → Logged β) :
    (quiet (.ok value) >>= next) = next value := rfl

end Logged
end SignedSession
