import SignedSession.Proofs.Lifetime

/-!
# Which periods make a policy

Two periods make a policy unless there is an objection to them, and of several objections the first is
given.  Every policy comes about in this way, so its window is a second or more and shorter than its
valid period, both in whole seconds.
-/

set_option autoImplicit false

namespace SignedSession

/-! ## Objections -/

/-- A condition under which an attempt at a policy is refused, and the words in which it is. -/
structure Objection where
  holds : Prop
  words : String

namespace Objection

/-- Whether an attempt at a policy is refused in the words of the first objection that holds, and
gives a policy that is right where none does. -/
def Settled (attempt : Except Error Policy) (right : Policy → Prop) : List Objection → Prop
  | [] => ∃ policy, attempt = .ok policy ∧ right policy
  | objection :: others =>
      (objection.holds →
        ∃ fault, attempt = .error (.invalidLifetime fault) ∧ fault.message = objection.words) ∧
      (¬ objection.holds → Settled attempt right others)

variable {attempt : Except Error Policy} {right : Policy → Prop} {objections : List Objection}

theorem Settled.exists_ok_iff (settled : Settled attempt right objections) :
    (∃ policy, attempt = .ok policy) ↔ ∀ objection ∈ objections, ¬ objection.holds := by
  induction objections with
  | nil =>
      obtain ⟨policy, accepted, -⟩ := settled
      simp [accepted]
  | cons objection others hypothesis =>
      rw [List.forall_mem_cons]
      by_cases holds : objection.holds
      · obtain ⟨fault, refused, -⟩ := settled.1 holds
        simp [refused, holds]
      · rw [hypothesis (settled.2 holds)]
        simp [holds]

end Objection

/-! ## Durations -/

theorem Duration.isWhole_iff_dvd {duration : Duration} :
    duration.IsWhole ↔ 1000000000 ∣ duration.nanoseconds := Int.dvd_iff_emod_eq_zero.symm

theorem Duration.seconds_le_of_isWhole {duration : Duration} (whole : duration.IsWhole) :
    duration.seconds ≤ 9223372036854775 := by
  have bounded := duration.bounded
  rw [nanoseconds_eq_of_isWhole whole] at bounded
  omega

/-- Every duration is told by the last full second before it and the nanoseconds from there.  To cut the
fraction off leads towards zero, so below zero it gives one second more. -/
theorem Duration.exists_ofParts? (duration : Duration) :
    ∃ (seconds : Int) (nanos : Nat), ofParts? seconds nanos = some duration ∧
      duration.seconds = (if seconds < 0 ∧ 0 < nanos then seconds + 1 else seconds) ∧
      (1000000000 ∣ duration.nanoseconds ↔ nanos = 0) := by
  refine ⟨duration.nanoseconds / 1000000000, (duration.nanoseconds % 1000000000).toNat, ?_, ?_, ?_⟩
  · have below : (duration.nanoseconds % 1000000000).toNat < 1000000000 := by omega
    have total : duration.nanoseconds / 1000000000 * 1000000000 +
        ((duration.nanoseconds % 1000000000).toNat : Int) = duration.nanoseconds := by omega
    rw [ofParts?, if_pos below, ofNanoseconds?, total, dif_pos duration.bounded]
  · have sign : Int.sign 1000000000 = 1 := rfl
    rw [seconds, Int.tdiv_eq_ediv, sign]
    split <;> split <;> omega
  · omega

namespace Policy

/-! ## Policies -/

/-- What speaks against two periods, in the order in which it is told. -/
def objections (validPeriod renewalWindow : Duration) : List Objection :=
  [⟨renewalWindow.nanoseconds ≤ 0, "regeneration window must be positive"⟩,
    ⟨¬ (1000000000 ∣ validPeriod.nanoseconds ∧ 1000000000 ∣ renewalWindow.nanoseconds),
      "periods must be a whole number of seconds"⟩,
    ⟨validPeriod.nanoseconds ≤ renewalWindow.nanoseconds,
      "regeneration window (" ++ toString renewalWindow.seconds ++
        "s) must be shorter than the valid period (" ++ toString validPeriod.seconds ++ "s)"⟩]

theorem create_eq_ok_iff {validPeriod renewalWindow : Duration} {policy : Policy} :
    create validPeriod renewalWindow = .ok policy ↔
      policy.validPeriod = validPeriod ∧ policy.renewalWindow = renewalWindow := by
  rw [← ofPeriods_eq_ok_iff, create]
  cases ofPeriods validPeriod renewalWindow with
  | error fault =>
      change Except.error (Error.invalidLifetime fault) = .ok policy ↔ _
      simp
  | ok made =>
      change Except.ok made = .ok policy ↔ _
      rw [Except.ok.injEq, Except.ok.injEq]

theorem create_settled (validPeriod renewalWindow : Duration) :
    Objection.Settled (create validPeriod renewalWindow)
      (fun policy => policy.validPeriod = validPeriod ∧ policy.renewalWindow = renewalWindow)
      (objections validPeriod renewalWindow) := by
  have whole_iff : (1000000000 ∣ validPeriod.nanoseconds ∧ 1000000000 ∣ renewalWindow.nanoseconds) ↔
      validPeriod.IsWhole ∧ renewalWindow.IsWhole :=
    and_congr Duration.isWhole_iff_dvd.symm Duration.isWhole_iff_dvd.symm
  refine ⟨?notPositive, fun positive => ⟨?fraction, fun whole => ⟨?notShorter, ?accepted⟩⟩⟩
  case notPositive =>
    intro notPositive
    refine ⟨.windowNotPositive, ?_, rfl⟩
    rw [create, ofPeriods, dif_neg (Int.not_lt.mpr notPositive)]
    rfl
  all_goals have window_pos : 0 < renewalWindow.nanoseconds := Int.not_le.mp positive
  case fraction =>
    intro fraction
    refine ⟨.fractionOfSecond, ?_, rfl⟩
    rw [create, ofPeriods, dif_pos window_pos, dif_neg (mt whole_iff.mpr fraction)]
    rfl
  all_goals have isWhole := whole_iff.mp (Classical.not_not.mp whole)
  case notShorter =>
    intro notShorter
    have longer : ¬ renewalWindow < validPeriod := Int.not_lt.mpr notShorter
    refine ⟨.windowNotShorter renewalWindow validPeriod, ?_, rfl⟩
    rw [create, ofPeriods, dif_pos window_pos, dif_pos isWhole, dif_neg longer]
    rfl
  case accepted =>
    intro shorter
    exact ⟨⟨validPeriod, renewalWindow, window_pos, isWhole.1, isWhole.2, Int.not_le.mp shorter⟩,
      create_eq_ok_iff.mpr ⟨rfl, rfl⟩, rfl, rfl⟩

theorem exists_create_iff {validPeriod renewalWindow : Duration} :
    (∃ policy, create validPeriod renewalWindow = .ok policy) ↔
      0 < renewalWindow.nanoseconds ∧ renewalWindow.nanoseconds < validPeriod.nanoseconds ∧
        1000000000 ∣ validPeriod.nanoseconds ∧ 1000000000 ∣ renewalWindow.nanoseconds := by
  rw [(create_settled validPeriod renewalWindow).exists_ok_iff]
  simp only [objections, List.forall_mem_cons, List.not_mem_nil, false_implies, implies_true,
    and_true, Classical.not_not, Int.not_le]
  constructor
  · rintro ⟨positive, whole, shorter⟩
    exact ⟨positive, shorter, whole⟩
  · rintro ⟨positive, shorter, whole⟩
    exact ⟨positive, whole, shorter⟩

theorem exists_seconds (policy : Policy) : ∃ valid window : Nat,
    policy.validPeriod.nanoseconds = valid * 1000000000 ∧
    policy.renewalWindow.nanoseconds = window * 1000000000 ∧
    1 ≤ window ∧ window < valid ∧ valid ≤ 9223372036854775 := by
  have positive := policy.window_seconds_pos
  have shorter := policy.window_seconds_lt
  have short := Duration.seconds_le_of_isWhole policy.valid_whole
  refine ⟨policy.validPeriod.seconds.toNat, policy.renewalWindow.seconds.toNat, ?_, ?_, ?_⟩
  · rw [Duration.nanoseconds_eq_of_isWhole policy.valid_whole, Int.toNat_of_nonneg (by omega)]
  · rw [Duration.nanoseconds_eq_of_isWhole policy.window_whole, Int.toNat_of_nonneg (by omega)]
  · omega

/-- Two periods make a policy of just these periods when the window is positive and shorter than the
valid period and both are whole seconds.  Otherwise the first objection is given.  Every policy is made
of two periods in this way, and so has a window of a second or more and a longer valid period, which
can be told in milliseconds.  The periods may be any durations, fractions below zero included. -/
theorem create_outcomes :
    (∀ duration : Duration, ∃ (seconds : Int) (nanos : Nat),
      Duration.ofParts? seconds nanos = some duration ∧
      duration.seconds = (if seconds < 0 ∧ 0 < nanos then seconds + 1 else seconds) ∧
      (1000000000 ∣ duration.nanoseconds ↔ nanos = 0)) ∧
    (∀ validPeriod renewalWindow : Duration,
      Objection.Settled (create validPeriod renewalWindow)
        (fun policy => policy.validPeriod = validPeriod ∧ policy.renewalWindow = renewalWindow)
        (objections validPeriod renewalWindow)) ∧
    (∀ validPeriod renewalWindow : Duration,
      (∃ policy, create validPeriod renewalWindow = .ok policy) ↔
        0 < renewalWindow.nanoseconds ∧ renewalWindow.nanoseconds < validPeriod.nanoseconds ∧
          1000000000 ∣ validPeriod.nanoseconds ∧ 1000000000 ∣ renewalWindow.nanoseconds) ∧
    (∀ policy : Policy, create policy.validPeriod policy.renewalWindow = .ok policy) ∧
    ∀ policy : Policy, ∃ valid window : Nat,
      policy.validPeriod.nanoseconds = valid * 1000000000 ∧
      policy.renewalWindow.nanoseconds = window * 1000000000 ∧
      1 ≤ window ∧ window < valid ∧ valid ≤ 9223372036854775 := by
  refine ⟨Duration.exists_ofParts?, create_settled, fun _ _ => exists_create_iff, ?_, exists_seconds⟩
  intro policy
  exact create_eq_ok_iff.mpr ⟨rfl, rfl⟩

/-- A window below zero is refused for that, and not for the fraction that it is. -/
example : create ⟨1500000000, by decide⟩ ⟨-500000000, by decide⟩ =
    .error (.invalidLifetime .windowNotPositive) := rfl

end Policy
end SignedSession
