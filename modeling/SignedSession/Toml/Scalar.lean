import SignedSession.Time.Calendar
import SignedSession.Toml.Quoted
import SignedSession.Toml.Value

/-!
# Numbers, dates and truth values

All values but texts, arrays and tables are single words of letters, digits and `+ - _ . :`.  A
word is read as a whole, so what it denotes does not hang on where reading might have stopped.  The
one exception is a date and a time joined by a space, which are two words.
-/

set_option autoImplicit false

namespace SignedSession.Toml.Scalar

def isWordChar (c : Char) : Bool :=
  c.isAlphanum || c == '+' || c == '-' || c == '_' || c == '.' || c == ':'

/-! ## Integers -/

def digit? (base : Nat) (c : Char) : Option Nat :=
  (Quoted.hexValue? c).filter (· < base)

/-- The value of further digits after those that make up `value`; a single underscore may precede
each. -/
def moreDigits? (base : Nat) : (value : Nat) → List Char → Option Nat
  | value, [] => some value
  | value, '_' :: c :: rest => do
      let digit ← digit? base c
      moreDigits? base (value * base + digit) rest
  | value, c :: rest => do
      let digit ← digit? base c
      moreDigits? base (value * base + digit) rest

def digits? (base : Nat) : List Char → Option Nat
  | [] => none
  | c :: rest => do
      let digit ← digit? base c
      moreDigits? base digit rest

/-- The value of decimal digits that do not begin with a needless zero. -/
def natural? : List Char → Option Nat
  | '0' :: _ :: _ => none
  | chars => digits? 10 chars

/-- Whether a sign is negative, and what follows it. -/
def sign : List Char → Bool × List Char
  | '-' :: rest => (true, rest)
  | '+' :: rest => (false, rest)
  | chars => (false, chars)

/-- An integer of any size: hexadecimal, octal or binary without a sign, or decimal. -/
def anyInteger? : List Char → Option Int
  | '0' :: 'x' :: rest => (digits? 16 rest).map Int.ofNat
  | '0' :: 'o' :: rest => (digits? 8 rest).map Int.ofNat
  | '0' :: 'b' :: rest => (digits? 2 rest).map Int.ofNat
  | chars =>
      let (negative, magnitude) := sign chars
      (natural? magnitude).map fun value => if negative then -(value : Int) else value

def FitsInt64 (value : Int) : Prop := -9223372036854775808 ≤ value ∧ value ≤ 9223372036854775807

instance (value : Int) : Decidable (FitsInt64 value) := inferInstanceAs (Decidable (_ ∧ _))

def integer? (chars : List Char) : Option Int :=
  (anyInteger? chars).filter fun value => FitsInt64 value

/-! ## Floating-point numbers -/

def isDigitOrUnderscore (c : Char) : Bool := c.isDigit || c == '_'

def exponent? : List Char → Option Int
  | [] => some 0
  | c :: rest =>
      if c == 'e' || c == 'E' then
        let (negative, magnitude) := sign rest
        (digits? 10 magnitude).map fun value => if negative then -(value : Int) else value
      else none

/-- Whether the number `digits * 10 ^ exponent`, rounded to 53 binary digits, is `2 ^ 1024` or
more.  Only numbers near the limit need to be worked out. -/
def overflows (digits : Nat) (exponent : Int) : Bool :=
  let limit := Nat.pow 2 1024 - Nat.pow 2 970
  let magnitude : Int := (toString digits).length + exponent
  if digits = 0 then false
  else if 310 < magnitude then true
  else if magnitude < 309 then false
  else if 0 ≤ exponent then limit ≤ digits * Nat.pow 10 exponent.toNat
  else limit * Nat.pow 10 (-exponent).toNat ≤ digits

/-- The digits and the decimal exponent of a number without sign that has a fraction, an exponent
or both. -/
def decimal? (chars : List Char) : Option (Nat × Int) := do
  let whole := chars.takeWhile isDigitOrUnderscore
  let integral ← natural? whole
  match chars.dropWhile isDigitOrUnderscore with
  | [] => none
  | '.' :: rest =>
      let fraction := rest.takeWhile isDigitOrUnderscore
      let fractional ← digits? 10 fraction
      let places := (fraction.filter Char.isDigit).length
      let exponent ← exponent? (rest.dropWhile isDigitOrUnderscore)
      return (integral * Nat.pow 10 places + fractional, exponent - places)
  | rest =>
      let exponent ← exponent? rest
      return (integral, exponent)

/-- Whether characters write a floating-point number.  A positive number beyond all of 64 bits is
none. -/
def isFloat (chars : List Char) : Bool :=
  let (negative, magnitude) := sign chars
  if magnitude = ['i', 'n', 'f'] ∨ magnitude = ['n', 'a', 'n'] then true
  else match decimal? magnitude with
    | some (digits, exponent) => negative || !overflows digits exponent
    | none => false

/-! ## Dates and times -/

/-- A number of two digits that lies between two bounds. -/
def twoDigits (least greatest : Nat) : Reader Nat
  | a :: b :: rest => do
      let tens ← digit? 10 a
      let ones ← digit? 10 b
      let value := 10 * tens + ones
      if least ≤ value ∧ value ≤ greatest then return (value, rest) else none
  | _ => none

def date : Reader Unit := fun chars => do
  let (century, rest) ← twoDigits 0 99 chars
  let (yearOfCentury, rest) ← twoDigits 0 99 rest
  let (_, rest) ← exactly '-' rest
  let (month, rest) ← twoDigits 1 12 rest
  let (_, rest) ← exactly '-' rest
  let (_, rest) ← twoDigits 1 (Civil.daysInMonth (100 * century + yearOfCentury) month) rest
  return ((), rest)

/-- A time `HH:MM:SS`, with a fraction of a second or without; the second may be a leap second. -/
def time : Reader Unit := fun chars => do
  let (_, rest) ← twoDigits 0 23 chars
  let (_, rest) ← exactly ':' rest
  let (_, rest) ← twoDigits 0 59 rest
  let (_, rest) ← exactly ':' rest
  let (_, rest) ← twoDigits 0 60 rest
  match rest with
  | '.' :: fraction =>
      if fraction.takeWhile Char.isDigit = [] then none
      else return ((), fraction.dropWhile Char.isDigit)
  | rest => return ((), rest)

def isOffset : List Char → Bool
  | [] => true
  | ['Z'] => true
  | ['z'] => true
  | c :: rest =>
      (c == '+' || c == '-') && (do
        let (_, rest) ← twoDigits 0 23 rest
        let (_, rest) ← exactly ':' rest
        let (_, rest) ← twoDigits 0 59 rest
        return rest) == some []

def isDate (chars : List Char) : Bool := date chars == some ((), [])

def isTime (chars : List Char) : Bool := time chars == some ((), [])

def isTimeWithOffset (chars : List Char) : Bool :=
  match time chars with
  | some ((), rest) => isOffset rest
  | none => false

def isDateTime (chars : List Char) : Bool :=
  match date chars with
  | some ((), c :: rest) => (c == 'T' || c == 't') && isTimeWithOffset rest
  | _ => false

/-! ## Words -/

def ofWord? (word : List Char) : Option Value :=
  if word = ['t', 'r', 'u', 'e'] then some (.boolean true)
  else if word = ['f', 'a', 'l', 's', 'e'] then some (.boolean false)
  else if isDate word || isTime word || isDateTime word then
    some (.dateTime (String.ofList word))
  else if isFloat word then some (.float (String.ofList word))
  else (integer? word).map .integer

/-- The value of a word.  A date takes the next word as its time if a single space joins them. -/
def read : Reader Value := fun chars =>
  let word := chars.takeWhile isWordChar
  let rest := chars.dropWhile isWordChar
  match isDate word, rest with
  | true, ' ' :: next =>
      let second := next.takeWhile isWordChar
      if second = [] then some (.dateTime (String.ofList word), rest)
      else if isTimeWithOffset second then
        some (.dateTime (String.ofList (word ++ ' ' :: second)), next.dropWhile isWordChar)
      else none
  | _, _ => (ofWord? word).map fun value => (value, rest)

end SignedSession.Toml.Scalar
