import SignedSession.Error
import SignedSession.Time.Duration

/-!
# Lifetime policies

A policy says for how long a token is accepted and how long before its expiry it is due for
replacement.  Both periods are whole seconds, and the renewal window is positive and shorter than
the valid period, so a token is never due when it is issued.
-/

set_option autoImplicit false

namespace SignedSession

structure Policy where
  validPeriod : Duration
  renewalWindow : Duration
  window_pos : 0 < renewalWindow.nanoseconds
  valid_whole : validPeriod.IsWhole
  window_whole : renewalWindow.IsWhole
  window_lt : renewalWindow < validPeriod
deriving DecidableEq

namespace Policy

/-- Tokens are accepted for two weeks and replaced in the second of them. -/
def standard : Policy where
  validPeriod := Duration.ofDays 14
  renewalWindow := Duration.ofDays 7
  window_pos := by decide
  valid_whole := by decide
  window_whole := by decide
  window_lt := by decide

instance : Inhabited Policy := ⟨standard⟩

/-- The policy of two periods.  Of several faults the first is given: a window that is not
positive, a fraction of a second, a window that is not shorter than the valid period. -/
def ofPeriods (validPeriod renewalWindow : Duration) : Except LifetimeFault Policy :=
  if window_pos : 0 < renewalWindow.nanoseconds then
    if whole : validPeriod.IsWhole ∧ renewalWindow.IsWhole then
      if window_lt : renewalWindow < validPeriod then
        .ok { validPeriod, renewalWindow, window_pos, valid_whole := whole.1,
              window_whole := whole.2, window_lt }
      else .error (.windowNotShorter renewalWindow validPeriod)
    else .error .fractionOfSecond
  else .error .windowNotPositive

def create (validPeriod renewalWindow : Duration) : Except Error Policy :=
  (ofPeriods validPeriod renewalWindow).mapError .invalidLifetime

theorem ofPeriods_eq_ok_iff {validPeriod renewalWindow : Duration} {policy : Policy} :
    ofPeriods validPeriod renewalWindow = .ok policy ↔
      policy.validPeriod = validPeriod ∧ policy.renewalWindow = renewalWindow := by
  constructor
  · intro accepted
    simp only [ofPeriods] at accepted
    split at accepted
    · split at accepted
      · split at accepted
        · cases accepted
          exact ⟨rfl, rfl⟩
        · cases accepted
      · cases accepted
    · cases accepted
  · rintro ⟨rfl, rfl⟩
    rw [ofPeriods, dif_pos policy.window_pos, dif_pos ⟨policy.valid_whole, policy.window_whole⟩,
      dif_pos policy.window_lt]

end Policy
end SignedSession
