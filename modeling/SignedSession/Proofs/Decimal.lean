import SignedSession.Toml.Scalar
import Mathlib.Data.List.Basic
import Mathlib.Data.List.TakeWhile

/-!
# Decimal numbers as words

The decimal text of a number is a word of a document, and as a word it is that number: not a date, not a
floating-point number, and not written with a needless zero.  A number without a place in 64 signed bits
is no word at all.
-/

set_option autoImplicit false

namespace SignedSession.Toml.Scalar

def AllDigits (chars : List Char) : Prop := ∀ c ∈ chars, c.isDigit = true

variable {chars : List Char}

theorem ne_of_isDigit {c other : Char} (digit : c.isDigit = true) (notDigit : other.isDigit = false) :
    c ≠ other := by
  rintro rfl
  exact Bool.false_ne_true (notDigit.symm.trans digit)

theorem AllDigits.not_mem (digits : AllDigits chars) {c : Char} (notDigit : c.isDigit = false) :
    c ∉ chars := fun member => ne_of_isDigit (digits c member) notDigit rfl

/-! ## The value of digits -/

theorem digit?_of_isDigit {c : Char} (digit : c.isDigit = true) :
    digit? 10 c = some (c.toNat - '0'.toNat) := by
  obtain ⟨low, high⟩ := Char.isDigit_iff_toNat.mp digit
  have decimal : '0' ≤ c ∧ c ≤ '9' := ⟨low, high⟩
  have small : c.toNat - '0'.toNat < 10 := by
    have nine : '9'.toNat = '0'.toNat + 9 := rfl
    omega
  rw [digit?, Quoted.hexValue?, if_pos decimal]
  exact Option.filter_some_pos (decide_eq_true small)

theorem moreDigits?_of_allDigits (digits : AllDigits chars) (value : Nat) :
    moreDigits? 10 value chars = some (Nat.ofDigitChars 10 chars value) := by
  induction chars generalizing value with
  | nil => rfl
  | cons c rest hypothesis =>
      have digit := digits c List.mem_cons_self
      have noUnderscore : ∀ (next : Char) (others : List Char), c = '_' → rest = next :: others →
          False := fun _ _ underscore _ => ne_of_isDigit digit rfl underscore
      rw [moreDigits?.eq_3 _ _ _ _ noUnderscore, digit?_of_isDigit digit, Option.bind_eq_bind,
        Option.bind_some, hypothesis (fun other member => digits other (.tail _ member)),
        Nat.mul_comm value 10]
      rfl

theorem digits?_of_allDigits (digits : AllDigits chars) (nonempty : chars ≠ []) :
    digits? 10 chars = some (Nat.ofDigitChars 10 chars 0) := by
  cases chars with
  | nil => exact absurd rfl nonempty
  | cons c rest =>
      have digit := digits c List.mem_cons_self
      rw [digits?, digit?_of_isDigit digit, Option.bind_eq_bind, Option.bind_some,
        moreDigits?_of_allDigits (fun other member => digits other (.tail _ member))]
      simp [Nat.ofDigitChars]

/-! ## The digits of a number -/

theorem allDigits_toDigits (number : Nat) : AllDigits (Nat.toDigits 10 number) := fun _ member =>
  Nat.isDigit_of_mem_toDigits (by decide) (by decide) member

theorem head?_toDigits_ne_zero {number : Nat} (positive : 0 < number) :
    (Nat.toDigits 10 number).head? ≠ some '0' := by
  induction number using Nat.strongRecOn with
  | ind number hypothesis =>
      by_cases single : number < 10
      · rw [Nat.toDigits_of_lt_base single, List.head?_cons, ne_eq, Option.some.injEq,
          Nat.digitChar_eq_zero]
        omega
      · have fewer := hypothesis (number / 10) (by omega) (by omega)
        rw [Nat.toDigits_of_base_le (by decide) (by omega),
          List.head?_append_of_ne_nil _ Nat.toDigits_ne_nil]
        exact fewer

theorem natural?_toDigits (number : Nat) : natural? (Nat.toDigits 10 number) = some number := by
  have needed : ∀ (next : Char) (others : List Char), Nat.toDigits 10 number = '0' :: next :: others →
      False := by
    intro next others starts
    by_cases zero : number = 0
    · rw [zero, Nat.toDigits_zero] at starts
      cases starts
    · exact head?_toDigits_ne_zero (Nat.pos_of_ne_zero zero) (by rw [starts]; rfl)
  rw [natural?.eq_2 _ needed, digits?_of_allDigits (allDigits_toDigits number) Nat.toDigits_ne_nil,
    Nat.ofDigitChars_ten_toDigits]

theorem sign_of_allDigits (digits : AllDigits chars) : sign chars = (false, chars) := by
  apply sign.eq_3
  · rintro rest rfl
    exact digits.not_mem rfl List.mem_cons_self
  · rintro rest rfl
    exact digits.not_mem rfl List.mem_cons_self

theorem anyInteger?_of_allDigits (digits : AllDigits chars) :
    anyInteger? chars = (natural? chars).map Int.ofNat := by
  have noBase : ∀ (base : Char) (rest : List Char), base.isDigit = false →
      chars = '0' :: base :: rest → False := by
    rintro base rest notDigit rfl
    exact digits.not_mem notDigit (by simp)
  rw [anyInteger?.eq_4 _ (fun rest => noBase 'x' rest rfl) (fun rest => noBase 'o' rest rfl)
    (fun rest => noBase 'b' rest rfl), sign_of_allDigits digits]
  dsimp only
  cases natural? chars <;> rfl

theorem integer?_toDigits (number : Nat) :
    integer? (Nat.toDigits 10 number) =
      if FitsInt64 number then some (number : Int) else none := by
  rw [integer?, anyInteger?_of_allDigits (allDigits_toDigits number), natural?_toDigits,
    Option.map_some, Option.filter_some]
  simp only [decide_eq_true_eq]
  rfl

/-! ## What digits are not -/

theorem rest_of_twoDigits {least greatest value : Nat} {rest : List Char}
    (read : twoDigits least greatest chars = some (value, rest)) : rest = chars.drop 2 := by
  unfold twoDigits at read
  split at read
  · next a b others =>
      simp only [Option.bind_eq_bind, Option.bind_eq_some_iff] at read
      obtain ⟨tens, -, ones, -, read⟩ := read
      split at read
      · cases read
        rfl
      · cases read
  · cases read

theorem AllDigits.rest_of_twoDigits (digits : AllDigits chars) {least greatest value : Nat}
    {rest : List Char} (read : twoDigits least greatest chars = some (value, rest)) :
    AllDigits rest := by
  rw [Scalar.rest_of_twoDigits read]
  exact fun c member => digits c (List.mem_of_mem_drop member)

theorem AllDigits.exactly_eq_none (digits : AllDigits chars) {c : Char} (notDigit : c.isDigit = false) :
    exactly c chars = none := by
  cases chars with
  | nil => rfl
  | cons head rest =>
      rw [exactly, if_neg (ne_of_isDigit (digits head List.mem_cons_self) notDigit)]

theorem date_of_allDigits (digits : AllDigits chars) : date chars = none := by
  rw [Option.eq_none_iff_forall_ne_some]
  intro result read
  simp only [date, Option.bind_eq_bind, Option.bind_eq_some_iff] at read
  obtain ⟨⟨century, rest⟩, first, ⟨year, rest'⟩, second, joined, dash, -⟩ := read
  have rest'Digits := (digits.rest_of_twoDigits first).rest_of_twoDigits second
  cases dash.symm.trans (rest'Digits.exactly_eq_none rfl)

theorem time_of_allDigits (digits : AllDigits chars) : time chars = none := by
  rw [Option.eq_none_iff_forall_ne_some]
  intro result read
  simp only [time, Option.bind_eq_bind, Option.bind_eq_some_iff] at read
  obtain ⟨⟨hour, rest⟩, first, joined, colon, -⟩ := read
  cases colon.symm.trans ((digits.rest_of_twoDigits first).exactly_eq_none rfl)

theorem isFloat_of_allDigits (digits : AllDigits chars) : isFloat chars = false := by
  have whole : ∀ c ∈ chars, isDigitOrUnderscore c = true := by
    intro c member
    rw [isDigitOrUnderscore, digits c member, Bool.true_or]
  have letters : ¬ (chars = ['i', 'n', 'f'] ∨ chars = ['n', 'a', 'n']) := by
    rintro (rfl | rfl)
    · exact digits.not_mem rfl List.mem_cons_self
    · exact digits.not_mem rfl List.mem_cons_self
  have noFraction : decimal? chars = none := by
    rw [decimal?, List.dropWhile_eq_nil_iff.mpr whole]
    cases natural? (chars.takeWhile isDigitOrUnderscore) <;> rfl
  rw [isFloat, sign_of_allDigits digits]
  dsimp only
  rw [if_neg letters, noFraction]

theorem ofWord?_of_allDigits (digits : AllDigits chars) :
    ofWord? chars = (integer? chars).map .integer := by
  have notTrue : chars ≠ ['t', 'r', 'u', 'e'] := by
    rintro rfl
    exact digits.not_mem rfl List.mem_cons_self
  have notFalse : chars ≠ ['f', 'a', 'l', 's', 'e'] := by
    rintro rfl
    exact digits.not_mem rfl List.mem_cons_self
  rw [ofWord?, if_neg notTrue, if_neg notFalse, isDate, isTime, isDateTime, date_of_allDigits digits,
    time_of_allDigits digits, isFloat_of_allDigits digits]
  rfl

theorem isWordChar_of_isDigit {c : Char} (digit : c.isDigit = true) : isWordChar c = true := by
  simp [isWordChar, Char.isAlphanum, digit]

/-- The digits of a number in front of anything that is not part of a word. -/
theorem read_toDigits {number : Nat} (fits : FitsInt64 number) {c : Char}
    (ends : isWordChar c = false) (rest : List Char) :
    read (Nat.toDigits 10 number ++ c :: rest) = some (.integer number, c :: rest) := by
  have digits := allDigits_toDigits number
  have wordChars : ∀ digit ∈ Nat.toDigits 10 number, isWordChar digit = true :=
    fun digit member => isWordChar_of_isDigit (digits digit member)
  have stops : ¬ isWordChar c = true := by simp [ends]
  have word : (Nat.toDigits 10 number ++ c :: rest).takeWhile isWordChar = Nat.toDigits 10 number := by
    rw [List.takeWhile_append_of_pos wordChars, List.takeWhile_cons_of_neg stops, List.append_nil]
  have after : (Nat.toDigits 10 number ++ c :: rest).dropWhile isWordChar = c :: rest := by
    rw [List.dropWhile_append_of_pos wordChars, List.dropWhile_cons_of_neg stops]
  have notDate : isDate (Nat.toDigits 10 number) = false := by
    rw [isDate, date_of_allDigits digits]
    rfl
  unfold read
  dsimp only
  rw [word, after, notDate, ofWord?_of_allDigits digits, integer?_toDigits, if_pos fits]
  rfl

end SignedSession.Toml.Scalar
