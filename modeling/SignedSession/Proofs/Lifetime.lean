import SignedSession.Session

/-!
# Lifetimes in unbounded integers

Expiries and the beginnings of renewal windows are computed as instants, which may run out at either
end.  Here both are plain seconds: an instant is compared with a second that need not be an instant,
and the computed comparisons are shown to agree with that.
-/

set_option autoImplicit false

namespace SignedSession
namespace Instant

/-- Whether an instant is later than a second and nanoseconds within it.  Neither has to fit an
instant. -/
def IsAfter (instant : Instant) (second : Int) (nanos : Nat) : Prop :=
  second < instant.seconds ∨ second = instant.seconds ∧ nanos < instant.nanos

instance (instant : Instant) (second : Int) (nanos : Nat) :
    Decidable (instant.IsAfter second nanos) :=
  inferInstanceAs (Decidable (_ ∨ _))

protected theorem le_refl (instant : Instant) : instant ≤ instant := .inr ⟨rfl, Nat.le_refl _⟩

theorem IsAfter.mono {now later : Instant} {second earlier : Int} {nanos : Nat}
    (after : now.IsAfter second nanos) (notBefore : now ≤ later) (le : earlier ≤ second) :
    later.IsAfter earlier nanos := by
  have order : now.seconds < later.seconds ∨
      now.seconds = later.seconds ∧ now.nanos ≤ later.nanos := notBefore
  unfold IsAfter at *
  omega

def beginning (second : Int) (inRange : InRange second) : Instant where
  seconds := second
  nanos := 0
  inRange := inRange
  nanos_lt := by decide

theorem beginning_lt_iff {second : Int} {inRange : InRange second} {now : Instant} :
    beginning second inRange < now ↔ now.IsAfter second 0 := Iff.rfl

theorem ofParts?_eq_some {second : Int} {nanos : Nat} (inRange : InRange second)
    (fitSecond : FitSecond second nanos) :
    ofParts? second nanos = some ⟨second, nanos, inRange, fitSecond.nanos_lt⟩ :=
  ofParts?_eq_some_iff.mpr ⟨fitSecond, rfl, rfl⟩

theorem ofSeconds?_eq_some {second : Int} (inRange : InRange second) :
    ofSeconds? second = some (beginning second inRange) :=
  ofParts?_eq_some inRange (.inl (by decide))

theorem map_seconds_ofParts? {second : Int} {nanos : Nat} (ordinary : nanos < 1000000000) :
    (ofParts? second nanos).map Instant.seconds = if InRange second then some second else none := by
  have fit : FitSecond second nanos := .inl ordinary
  by_cases inRange : InRange second
  · rw [ofParts?_eq_some inRange fit, if_pos inRange]
    rfl
  · have fails : ofParts? second nanos = none := by
      apply dif_neg
      intro both
      exact inRange both.1
    rw [fails, if_neg inRange]
    rfl

/-- Forwards, a leap second counts as the second that it follows, so only the seconds are added. -/
theorem map_seconds_shift? (now : Instant) {offset : Int} (forwards : 0 < offset) :
    (now.shift? offset).map Instant.seconds =
      if InRange (now.seconds + offset) then some (now.seconds + offset) else none := by
  have nonzero : offset ≠ 0 := by omega
  by_cases ordinary : now.nanos < 1000000000
  · rw [shift?, if_neg nonzero, if_pos ordinary]
    exact map_seconds_ofParts? ordinary
  · have below := now.nanos_lt
    have rest : now.nanos - 1000000000 < 1000000000 := by omega
    rw [shift?, if_neg nonzero, if_neg ordinary, if_pos forwards]
    exact map_seconds_ofParts? rest

example : (⟨4, 1333333333, by decide, by decide⟩ : Instant).shift? 2 = ofParts? 6 333333333 := by
  decide

/-- The middle of the leap second that ended the year 2016. -/
def leapSecond : Instant where
  seconds := 1483228799
  nanos := 1500000000
  inRange := by decide
  nanos_lt := by decide

/-- In a leap second inside a minute, which followed 23:56:04 on the same day. -/
def innerLeapSecond : Instant where
  seconds := 1483228564
  nanos := 1333333333
  inRange := by decide
  nanos_lt := by decide

/-- One nanosecond into the year after the leap second at its end. -/
def newYear : Instant where
  seconds := 1483228800
  nanos := 1
  inRange := by decide
  nanos_lt := by decide

end Instant

namespace Policy

/-- The shortest policy: a token lasts for two seconds and is due in the second of them. -/
def shortest : Policy where
  validPeriod := ⟨2000000000, by decide⟩
  renewalWindow := ⟨1000000000, by decide⟩
  window_pos := by decide
  valid_whole := by decide
  window_whole := by decide
  window_lt := by decide

theorem window_seconds_pos (policy : Policy) : 0 < policy.renewalWindow.seconds := by
  have positive := policy.window_pos
  rw [Duration.nanoseconds_eq_of_isWhole policy.window_whole] at positive
  omega

theorem window_seconds_lt (policy : Policy) :
    policy.renewalWindow.seconds < policy.validPeriod.seconds := by
  have shorter : policy.renewalWindow.nanoseconds < policy.validPeriod.nanoseconds :=
    policy.window_lt
  rw [Duration.nanoseconds_eq_of_isWhole policy.window_whole,
    Duration.nanoseconds_eq_of_isWhole policy.valid_whole] at shorter
  omega

def expiryAt (policy : Policy) (now : Instant) : Int := now.seconds + policy.validPeriod.seconds

/-- Whether a token issued at an instant has an expiry that is an instant from 1970 on. -/
def CanIssue (policy : Policy) (now : Instant) : Prop :=
  0 ≤ policy.expiryAt now ∧ policy.expiryAt now ≤ 8210266876799

instance (policy : Policy) (now : Instant) : Decidable (policy.CanIssue now) :=
  inferInstanceAs (Decidable (_ ∧ _))

theorem expiry?_eq (policy : Policy) (now : Instant) :
    policy.expiry? now =
      if policy.CanIssue now then some (UInt64.ofNat (policy.expiryAt now).toNat) else none := by
  have forwards := Int.lt_trans policy.window_seconds_pos policy.window_seconds_lt
  have seconds : (now.shift? policy.validPeriod.seconds).map Instant.seconds =
      if Instant.InRange (policy.expiryAt now) then some (policy.expiryAt now) else none :=
    now.map_seconds_shift? forwards
  rw [expiry?]
  by_cases inRange : Instant.InRange (policy.expiryAt now)
  · rw [if_pos inRange, Option.map_eq_some_iff] at seconds
    obtain ⟨expiresAt, shifted, second⟩ := seconds
    rw [shifted, Option.bind_eq_bind, Option.bind_some, second]
    by_cases after1970 : 0 ≤ policy.expiryAt now
    · rw [if_pos after1970, if_pos ⟨after1970, inRange.2⟩]
      rfl
    · have cannot : ¬ policy.CanIssue now := by
        intro can
        exact after1970 can.1
      rw [if_neg after1970, if_neg cannot]
  · rw [if_neg inRange, Option.map_eq_none_iff] at seconds
    have cannot : ¬ policy.CanIssue now := by
      intro can
      rcases can with ⟨lower, upper⟩
      unfold Instant.InRange at inRange
      omega
    rw [seconds, if_neg cannot]
    rfl

/-- A window that begins before every instant has begun. -/
theorem isDue_beginning (policy : Policy) {second : Int} (inRange : Instant.InRange second)
    (now : Instant) :
    policy.isDue (Instant.beginning second inRange) now =
      decide (now.IsAfter (second - policy.renewalWindow.seconds) 0) := by
  have positive := policy.window_seconds_pos
  have nonzero : -policy.renewalWindow.seconds ≠ 0 := by omega
  have shifted : (Instant.beginning second inRange).shift? (-policy.renewalWindow.seconds) =
      Instant.ofSeconds? (second - policy.renewalWindow.seconds) := by
    have ordinary : (Instant.beginning second inRange).nanos < 1000000000 := Nat.zero_lt_succ _
    rw [Instant.shift?, if_neg nonzero, if_pos ordinary]
    rfl
  rw [isDue, shifted]
  -- Where the window begins before every instant, no instant is left to compare with.
  by_cases told : Instant.InRange (second - policy.renewalWindow.seconds)
  · rw [Instant.ofSeconds?_eq_some told]
    rfl
  · have early : second - policy.renewalWindow.seconds < now.seconds := by
      have upper := inRange.2
      have lower := now.inRange.1
      rw [Instant.InRange] at told
      omega
    rw [Instant.ofSeconds?_eq_none_iff.mpr told]
    exact (decide_eq_true (Or.inl early)).symm

end Policy
end SignedSession
