/-!
# Durations

A duration is a number of nanoseconds, negative ones included, of at most 9223372036854775807
milliseconds either way.
-/

set_option autoImplicit false

namespace SignedSession

/-- A bounded, signed number of nanoseconds. -/
structure Duration where
  nanoseconds : Int
  bounded : nanoseconds.natAbs ≤ 9223372036854775807000000
deriving DecidableEq

namespace Duration

instance : LT Duration := ⟨fun left right => left.nanoseconds < right.nanoseconds⟩

instance : LE Duration := ⟨fun left right => left.nanoseconds ≤ right.nanoseconds⟩

instance (left right : Duration) : Decidable (left < right) :=
  inferInstanceAs (Decidable (left.nanoseconds < right.nanoseconds))

instance (left right : Duration) : Decidable (left ≤ right) :=
  inferInstanceAs (Decidable (left.nanoseconds ≤ right.nanoseconds))

def ofNanoseconds? (nanoseconds : Int) : Option Duration :=
  if h : nanoseconds.natAbs ≤ 9223372036854775807000000 then some ⟨nanoseconds, h⟩ else none

/-- Seconds and a fraction of a second counted upwards in nanoseconds. -/
def ofParts? (seconds : Int) (nanos : Nat) : Option Duration :=
  if nanos < 1000000000 then ofNanoseconds? (seconds * 1000000000 + nanos) else none

def ofSeconds? (seconds : Int) : Option Duration := ofParts? seconds 0

/-- The seconds of a duration, without what is left over of a second. -/
def seconds (duration : Duration) : Int := duration.nanoseconds.tdiv 1000000000

def IsWhole (duration : Duration) : Prop := duration.nanoseconds % 1000000000 = 0

instance (duration : Duration) : Decidable duration.IsWhole :=
  inferInstanceAs (Decidable (duration.nanoseconds % 1000000000 = 0))

def ofDays (days : Nat) (few : days ≤ 106751991167 := by decide) : Duration :=
  ⟨days * 86400000000000, by omega⟩

theorem nanoseconds_eq_of_isWhole {duration : Duration} (whole : duration.IsWhole) :
    duration.nanoseconds = duration.seconds * 1000000000 := by
  have exact : (1000000000 : Int) ∣ duration.nanoseconds := Int.dvd_of_emod_eq_zero whole
  exact (Int.tdiv_mul_cancel exact).symm

theorem ofSeconds?_eq_some_iff {seconds : Int} {duration : Duration} :
    ofSeconds? seconds = some duration ↔ duration.nanoseconds = seconds * 1000000000 := by
  simp only [ofSeconds?, ofParts?, ofNanoseconds?]
  constructor
  · intro h
    simp only [Nat.reduceLT, if_true] at h
    split at h
    · cases h
      simp
    · cases h
  · intro h
    have bounded := duration.bounded
    rw [h] at bounded
    simp only [Nat.reduceLT, if_true, Int.natCast_zero, Int.add_zero, dif_pos bounded]
    cases duration
    simp_all

end Duration
end SignedSession
