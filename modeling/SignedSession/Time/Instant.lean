/-!
# Instants

An instant is a second, counted from 1970-01-01 00:00:00 UTC, and nanoseconds from its beginning.  Any
second may be followed by a leap second, whose nanoseconds count on from a thousand million.  Instants
range over the years -262143 to 262142 and are ordered by their seconds and then by their nanoseconds.
`ofParts?` makes an instant of the two numbers, with a leap second at the end of a minute only.
-/

set_option autoImplicit false

namespace SignedSession

/-- Whether a second can be told: it lies in the years -262143 to 262142. -/
def Instant.InRange (seconds : Int) : Prop := -8334601228800 ≤ seconds ∧ seconds ≤ 8210266876799

instance (seconds : Int) : Decidable (Instant.InRange seconds) :=
  inferInstanceAs (Decidable (_ ∧ _))

structure Instant where
  seconds : Int
  nanos : Nat
  inRange : Instant.InRange seconds
  nanos_lt : nanos < 2000000000
deriving DecidableEq

namespace Instant

@[ext] theorem ext {left right : Instant} (seconds : left.seconds = right.seconds)
    (nanos : left.nanos = right.nanos) : left = right := by
  cases left
  cases right
  simp_all

instance : LT Instant where
  lt left right :=
    left.seconds < right.seconds ∨ left.seconds = right.seconds ∧ left.nanos < right.nanos

instance : LE Instant where
  le left right :=
    left.seconds < right.seconds ∨ left.seconds = right.seconds ∧ left.nanos ≤ right.nanos

instance (left right : Instant) : Decidable (left < right) :=
  inferInstanceAs (Decidable (_ ∨ _))

instance (left right : Instant) : Decidable (left ≤ right) :=
  inferInstanceAs (Decidable (_ ∨ _))

/-- What `ofParts?` asks of nanoseconds, though not every instant is so: they are below a thousand
million, or below twice as many in the last second of a minute. -/
def FitSecond (seconds : Int) (nanos : Nat) : Prop :=
  nanos < 1000000000 ∨ nanos < 2000000000 ∧ seconds % 60 = 59

instance (seconds : Int) (nanos : Nat) : Decidable (FitSecond seconds nanos) :=
  inferInstanceAs (Decidable (_ ∨ _))

theorem FitSecond.nanos_lt {seconds : Int} {nanos : Nat} (fit : FitSecond seconds nanos) :
    nanos < 2000000000 := by
  rcases fit with ordinary | ⟨leap, -⟩
  · omega
  · exact leap

/-- The instant of a second and nanoseconds that fit it. -/
def ofParts? (seconds : Int) (nanos : Nat) : Option Instant :=
  if h : InRange seconds ∧ FitSecond seconds nanos then some ⟨seconds, nanos, h.1, h.2.nanos_lt⟩
  else none

def ofSeconds? (seconds : Int) : Option Instant := ofParts? seconds 0

/-- The instant a whole number of seconds away, if it is in range.  Moving out of a leap second
ends in an ordinary one: forwards the leap second counts as the second that it follows, backwards
as the one after that. -/
def shift? (instant : Instant) (offset : Int) : Option Instant :=
  if offset = 0 then some instant
  else if instant.nanos < 1000000000 then
    ofParts? (instant.seconds + offset) instant.nanos
  else if 0 < offset then
    ofParts? (instant.seconds + offset) (instant.nanos - 1000000000)
  else
    ofParts? (instant.seconds + 1 + offset) (instant.nanos - 1000000000)

theorem ofParts?_eq_some_iff {seconds : Int} {nanos : Nat} {instant : Instant} :
    ofParts? seconds nanos = some instant ↔
      FitSecond seconds nanos ∧ instant.seconds = seconds ∧ instant.nanos = nanos := by
  constructor
  · intro made
    rw [ofParts?] at made
    split at made
    · next told =>
        cases made
        exact ⟨told.2, rfl, rfl⟩
    · cases made
  · rintro ⟨fit, rfl, rfl⟩
    exact dif_pos ⟨instant.inRange, fit⟩

/-- There are instants in a leap second inside a minute, but none is made of its parts. -/
example : (⟨4, 1333333333, by decide, by decide⟩ : Instant).seconds = 4 ∧
    ofParts? 4 1333333333 = none := by decide

theorem ofSeconds?_eq_none_iff {seconds : Int} : ofSeconds? seconds = none ↔ ¬ InRange seconds := by
  simp [ofSeconds?, ofParts?, FitSecond]

end Instant
end SignedSession
