import SignedSession.Config
import SignedSession.Proofs.Result
import SignedSession.Proofs.Windows

/-!
# From settings to a policy

The periods of a configuration are numbers of 64 bits, those of a policy are durations, and signed
numbers stand in between.  A number keeps its value through all three or is refused as too large, so the
policy of a configuration has just the periods that the configuration gives.
-/

set_option autoImplicit false

namespace SignedSession

namespace Duration

theorem exists_ofSeconds?_iff {seconds : Int} :
    (∃ duration, ofSeconds? seconds = some duration) ↔ seconds.natAbs ≤ 9223372036854775 := by
  constructor
  · rintro ⟨duration, told⟩
    have bounded := duration.bounded
    rw [ofSeconds?_eq_some_iff.mp told] at bounded
    omega
  · intro short
    have bounded : (seconds * 1000000000).natAbs ≤ 9223372036854775807000000 := by omega
    exact ⟨⟨_, bounded⟩, ofSeconds?_eq_some_iff.mpr rfl⟩

theorem seconds_of_nanoseconds {duration : Duration} {seconds : Int}
    (exact : duration.nanoseconds = seconds * 1000000000) : duration.seconds = seconds := by
  rw [Duration.seconds, exact, Int.mul_tdiv_cancel _ (by decide)]

end Duration

namespace Config

/-! ## One period -/

theorem toInt_toInt64 {number : UInt64} (fits : number.toNat ≤ 9223372036854775807) :
    number.toInt64.toInt = number.toNat := by
  have half : 2 * number.toBitVec.toNat < 2 ^ 64 := by
    rw [UInt64.toNat_toBitVec]
    omega
  exact BitVec.toInt_eq_toNat_of_lt half

theorem signed?_eq_some_iff {number : UInt64} {signed : Int64} :
    signed? number = some signed ↔ signed.toInt = number.toNat := by
  rw [signed?]
  split
  · next fits => rw [← toInt_toInt64 fits, Option.some.injEq, eq_comm, Int64.toInt_inj]
  · next large =>
      have limit := signed.toInt_lt
      refine iff_of_false (by simp) ?_
      omega

theorem signed?_eq_none_iff {number : UInt64} :
    signed? number = none ↔ 9223372036854775807 < number.toNat := by
  rw [signed?]
  split <;> simp <;> omega

theorem duration_eq_ok_iff {setting : Setting} {seconds : UInt64} {period : Duration} :
    duration setting seconds = .ok period ↔ period.nanoseconds = seconds.toNat * 1000000000 := by
  rw [← Duration.ofSeconds?_eq_some_iff, duration]
  by_cases fits : seconds.toNat ≤ 9223372036854775807
  · rw [signed?, if_pos fits, Option.bind_some, toInt_toInt64 fits]
    split
    · next told => rw [told, Except.ok.injEq, Option.some.injEq]
    · next untold => simp [untold]
  · have untold : Duration.ofSeconds? seconds.toNat ≠ some period := by
      intro told
      have short := Duration.exists_ofSeconds?_iff.mp ⟨period, told⟩
      omega
    rw [signed?, if_neg fits]
    exact iff_of_false (by simp) untold

theorem exists_duration {seconds : UInt64} (short : seconds.toNat ≤ 9223372036854775)
    (setting : Setting) : ∃ period, duration setting seconds = .ok period := by
  have bounded : (seconds.toNat : Int).natAbs ≤ 9223372036854775 := by rwa [Int.natAbs_natCast]
  obtain ⟨period, told⟩ := Duration.exists_ofSeconds?_iff.mpr bounded
  exact ⟨period, duration_eq_ok_iff.mpr (Duration.ofSeconds?_eq_some_iff.mp told)⟩

theorem duration_of_lt {seconds : UInt64} (long : 9223372036854775 < seconds.toNat)
    (setting : Setting) :
    duration setting seconds = .error (.invalidLifetime (.tooLarge setting seconds.toNat)) := by
  cases found : duration setting seconds with
  | ok period =>
      have told := Duration.ofSeconds?_eq_some_iff.mpr (duration_eq_ok_iff.mp found)
      have short := Duration.exists_ofSeconds?_iff.mp ⟨period, told⟩
      omega
  | error error =>
      rw [duration] at found
      split at found
      · cases found
      · exact found.symm

/-! ## Both periods -/

theorem policy_eq_ok_iff {config : Config} {policy : Policy} :
    config.policy = .ok policy ↔
      policy.validPeriod.nanoseconds = config.validPeriod.toNat * 1000000000 ∧
        policy.renewalWindow.nanoseconds = config.renewalWindow.toNat * 1000000000 := by
  rw [Config.policy, bind_eq_ok_iff]
  simp only [bind_eq_ok_iff, duration_eq_ok_iff, Policy.create_eq_ok_iff]
  constructor
  · rintro ⟨validPeriod, valid, renewalWindow, window, rfl, rfl⟩
    exact ⟨valid, window⟩
  · rintro ⟨valid, window⟩
    exact ⟨_, valid, _, window, rfl, rfl⟩

/-- What speaks against two periods that are told in whole seconds. -/
def windowObjections (valid window : Nat) : List Objection :=
  [⟨window = 0, "regeneration window must be positive"⟩,
    ⟨valid ≤ window,
      "regeneration window (" ++ toString window ++ "s) must be shorter than the valid period (" ++
        toString valid ++ "s)"⟩]

/-- What speaks against the periods of a configuration, in the order in which it is told. -/
def objections (config : Config) : List Objection :=
  ⟨9223372036854775 < config.validPeriod.toNat,
    "valid_period_secs" ++ " is too large: " ++ toString config.validPeriod.toNat⟩ ::
  ⟨9223372036854775 < config.renewalWindow.toNat,
    "regen_before_secs" ++ " is too large: " ++ toString config.renewalWindow.toNat⟩ ::
  windowObjections config.validPeriod.toNat config.renewalWindow.toNat

theorem create_settled_of_seconds {validPeriod renewalWindow : Duration} {valid window : Nat}
    (validExact : validPeriod.nanoseconds = valid * 1000000000)
    (windowExact : renewalWindow.nanoseconds = window * 1000000000) :
    Objection.Settled (Policy.create validPeriod renewalWindow)
      (fun policy => policy.validPeriod.nanoseconds = valid * 1000000000 ∧
        policy.renewalWindow.nanoseconds = window * 1000000000)
      (windowObjections valid window) := by
  have zero_iff : (window : Int) * 1000000000 ≤ 0 ↔ window = 0 := by omega
  have longer_iff : (valid : Int) * 1000000000 ≤ window * 1000000000 ↔ valid ≤ window := by omega
  have settled := Policy.create_settled validPeriod renewalWindow
  rw [Policy.objections, validExact, windowExact, Duration.seconds_of_nanoseconds validExact,
    Duration.seconds_of_nanoseconds windowExact] at settled
  obtain ⟨notPositive, positiveSettled⟩ := settled
  refine ⟨fun zero => notPositive (zero_iff.mpr zero), fun positive => ?_⟩
  -- Whole seconds leave no fraction to object to.
  obtain ⟨-, wholeSettled⟩ := positiveSettled (mt zero_iff.mp positive)
  obtain ⟨notShorter, accepted⟩ :=
    wholeSettled (Classical.not_not.mpr ⟨Int.dvd_mul_left _ _, Int.dvd_mul_left _ _⟩)
  refine ⟨fun long => notShorter (longer_iff.mpr long), fun shorter => ?_⟩
  obtain ⟨policy, made, isValid, isWindow⟩ := accepted (mt longer_iff.mp shorter)
  exact ⟨policy, made, isValid ▸ validExact, isWindow ▸ windowExact⟩

theorem policy_settled (config : Config) :
    Objection.Settled config.policy
      (fun policy => policy.validPeriod.nanoseconds = config.validPeriod.toNat * 1000000000 ∧
        policy.renewalWindow.nanoseconds = config.renewalWindow.toNat * 1000000000)
      config.objections := by
  refine ⟨?validTooLarge, fun validFits => ⟨?windowTooLarge, fun windowFits => ?bothFit⟩⟩
  case validTooLarge =>
    intro long
    refine ⟨.tooLarge .validPeriod config.validPeriod.toNat, ?_, rfl⟩
    rw [Config.policy, duration_of_lt long, error_bind]
  all_goals obtain ⟨validPeriod, valid⟩ := exists_duration (Nat.not_lt.mp validFits) .validPeriod
  case windowTooLarge =>
    intro long
    refine ⟨.tooLarge .renewalWindow config.renewalWindow.toNat, ?_, rfl⟩
    rw [Config.policy, valid, ok_bind, duration_of_lt long, error_bind]
  case bothFit =>
    obtain ⟨renewalWindow, window⟩ := exists_duration (Nat.not_lt.mp windowFits) .renewalWindow
    rw [Config.policy, valid, ok_bind, window, ok_bind]
    exact create_settled_of_seconds (duration_eq_ok_iff.mp valid) (duration_eq_ok_iff.mp window)

theorem exists_policy_iff {config : Config} :
    (∃ policy, config.policy = .ok policy) ↔
      0 < config.renewalWindow.toNat ∧ config.renewalWindow.toNat < config.validPeriod.toNat ∧
        config.validPeriod.toNat ≤ 9223372036854775 := by
  rw [(policy_settled config).exists_ok_iff]
  simp only [objections, windowObjections, List.forall_mem_cons, List.not_mem_nil, false_implies,
    implies_true, and_true]
  omega

/-- A configuration gives a policy of exactly its periods when the window is positive, shorter than the
valid period, and that no longer than a duration can be.  Otherwise it is refused for the first of what
speaks against it.  The number of each period keeps its value as a signed number, and as a duration. -/
theorem policy_outcomes :
    (∀ config : Config, Objection.Settled config.policy
      (fun policy => policy.validPeriod.nanoseconds = config.validPeriod.toNat * 1000000000 ∧
        policy.renewalWindow.nanoseconds = config.renewalWindow.toNat * 1000000000)
      config.objections) ∧
    (∀ config : Config, (∃ policy, config.policy = .ok policy) ↔
      0 < config.renewalWindow.toNat ∧ config.renewalWindow.toNat < config.validPeriod.toNat ∧
        config.validPeriod.toNat ≤ 9223372036854775) ∧
    (∀ (config : Config) (policy : Policy), config.policy = .ok policy ↔
      policy.validPeriod.nanoseconds = config.validPeriod.toNat * 1000000000 ∧
        policy.renewalWindow.nanoseconds = config.renewalWindow.toNat * 1000000000) ∧
    (∀ (number : UInt64) (signed : Int64),
      signed? number = some signed ↔ signed.toInt = number.toNat) ∧
    (∀ number : UInt64, signed? number = none ↔ 9223372036854775807 < number.toNat) ∧
    ∀ (setting : Setting) (seconds : UInt64) (period : Duration),
      duration setting seconds = .ok period ↔ period.nanoseconds = seconds.toNat * 1000000000 :=
  ⟨policy_settled, fun _ => exists_policy_iff, fun _ _ => policy_eq_ok_iff,
    fun _ _ => signed?_eq_some_iff, fun _ => signed?_eq_none_iff, fun _ _ _ => duration_eq_ok_iff⟩

/-- A valid period one second longer than any duration is refused before the window is looked at. -/
example : policy ⟨9223372036854776, 0⟩ =
    .error (.invalidLifetime (.tooLarge .validPeriod 9223372036854776)) := rfl

end Config
end SignedSession
