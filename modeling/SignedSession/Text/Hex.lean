/-!
# Hexadecimal text

Each byte is two lower-case hexadecimal digits, the high half first.  Main statement:
`decode?` reads back what `encode` writes (`decode?_encode`).
-/

set_option autoImplicit false

namespace SignedSession.Hex

def digit (value : Nat) : Char :=
  if value < 10 then Char.ofNat (48 + value) else Char.ofNat (87 + value)

/-- The value of a lower-case hexadecimal digit. -/
def value? (c : Char) : Option Nat :=
  if '0' ≤ c ∧ c ≤ '9' then some (c.toNat - 48)
  else if 'a' ≤ c ∧ c ≤ 'f' then some (c.toNat - 87)
  else none

def encodeChars : List UInt8 → List Char
  | [] => []
  | byte :: rest => digit (byte.toNat / 16) :: digit (byte.toNat % 16) :: encodeChars rest

def decodeChars? : List Char → Option (List UInt8)
  | [] => some []
  | [_] => none
  | high :: low :: rest => do
      let h ← value? high
      let l ← value? low
      let bytes ← decodeChars? rest
      return UInt8.ofNat (h * 16 + l) :: bytes

def encode (bytes : List UInt8) : String := String.ofList (encodeChars bytes)

def decode? (text : String) : Option (List UInt8) := decodeChars? text.toList

theorem value?_digit {value : Nat} (small : value < 16) : value? (digit value) = some value := by
  have all : ∀ v ∈ List.range 16, value? (digit v) = some v := by decide
  exact all value (List.mem_range.mpr small)

theorem decodeChars?_encodeChars (bytes : List UInt8) :
    decodeChars? (encodeChars bytes) = some bytes := by
  induction bytes with
  | nil => rfl
  | cons byte rest ih =>
      have small := byte.toNat_lt
      have whole : byte.toNat / 16 * 16 + byte.toNat % 16 = byte.toNat := by omega
      have high : value? (digit (byte.toNat / 16)) = some (byte.toNat / 16) :=
        value?_digit (by omega)
      have low : value? (digit (byte.toNat % 16)) = some (byte.toNat % 16) :=
        value?_digit (by omega)
      simp only [encodeChars, decodeChars?, high, low, ih, Option.pure_def, Option.bind_eq_bind,
        Option.bind_some, whole, UInt8.ofNat_toNat]

@[simp] theorem decode?_encode (bytes : List UInt8) : decode? (encode bytes) = some bytes := by
  simp [decode?, encode, decodeChars?_encodeChars]

@[simp] theorem length_encodeChars (bytes : List UInt8) :
    (encodeChars bytes).length = 2 * bytes.length := by
  induction bytes with
  | nil => rfl
  | cons byte rest ih =>
      simp only [encodeChars, List.length_cons, ih]
      omega

end SignedSession.Hex
