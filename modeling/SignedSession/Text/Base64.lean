import SignedSession.Text.Utf8

/-!
# Base64

Three bytes are four symbols of the alphabet `A`–`Z`, `a`–`z`, `0`–`9`, `+`, `/`; a last group of
one or two bytes is completed to four symbols with `=`.  Reading is strict: the completion is
required and the bits of the last symbol that no byte uses are zero, so bytes have one encoding.
A text that is no encoding is refused with the first fault that reading meets, and the offset of a
fault counts bytes of the text's UTF-8 form.
-/

set_option autoImplicit false

namespace SignedSession.Base64

def padding : UInt8 := 61

def symbol (value : Nat) : UInt8 :=
  if value < 26 then UInt8.ofNat (65 + value)
  else if value < 52 then UInt8.ofNat (71 + value)
  else if value < 62 then UInt8.ofNat (value - 4)
  else if value = 62 then 43
  else 47

def value? (byte : UInt8) : Option Nat :=
  if 65 ≤ byte ∧ byte ≤ 90 then some (byte.toNat - 65)
  else if 97 ≤ byte ∧ byte ≤ 122 then some (byte.toNat - 71)
  else if 48 ≤ byte ∧ byte ≤ 57 then some (byte.toNat + 4)
  else if byte = 43 then some 62
  else if byte = 47 then some 63
  else none

/-! ## Encoding -/

def encodeBytes : List UInt8 → List UInt8
  | [] => []
  | [a] => [symbol (a.toNat / 4), symbol (a.toNat % 4 * 16), padding, padding]
  | [a, b] =>
      [symbol (a.toNat / 4), symbol (a.toNat % 4 * 16 + b.toNat / 16),
        symbol (b.toNat % 16 * 4), padding]
  | a :: b :: c :: rest =>
      symbol (a.toNat / 4) :: symbol (a.toNat % 4 * 16 + b.toNat / 16) ::
        symbol (b.toNat % 16 * 4 + c.toNat / 64) :: symbol (c.toNat % 64) :: encodeBytes rest

def encode (bytes : List UInt8) : String := Utf8.ofAscii (encodeBytes bytes)

/-! ## Decoding -/

inductive DecodeError
  | invalidByte (byte : UInt8) (offset : Nat)
  /-- The symbols end inside the first byte of a group; their number is given. -/
  | invalidLength (length : Nat)
  /-- The last symbol has bits that no byte uses and that are not zero. -/
  | invalidLastSymbol (byte : UInt8) (offset : Nat)
  | invalidPadding
deriving DecidableEq

def DecodeError.message : DecodeError → String
  | .invalidByte byte offset => s!"Invalid symbol {byte}, offset {offset}."
  | .invalidLength length => s!"Invalid input length: {length}"
  | .invalidLastSymbol byte offset => s!"Invalid last symbol {byte}, offset {offset}."
  | .invalidPadding => "Invalid padding"

def valueAt (offset : Nat) (byte : UInt8) : Except DecodeError Nat :=
  match value? byte with
  | some value => .ok value
  | none => .error (.invalidByte byte offset)

def firstByte (w x : Nat) : UInt8 := UInt8.ofNat (w * 4 + x / 16)

def secondByte (x y : Nat) : UInt8 := UInt8.ofNat (x * 16 + y / 4)

def thirdByte (y z : Nat) : UInt8 := UInt8.ofNat (y * 64 + z)

def decodeGroup (offset : Nat) (a b c d : UInt8) : Except DecodeError (List UInt8) := do
  let w ← valueAt offset a
  let x ← valueAt (offset + 1) b
  let y ← valueAt (offset + 2) c
  let z ← valueAt (offset + 3) d
  return [firstByte w x, secondByte x y, thirdByte y z]

/-- The bytes of a last group of four, of which one or two may be `=`. -/
def decodeLastGroup (offset : Nat) (a b c d : UInt8) : Except DecodeError (List UInt8) := do
  let w ← valueAt offset a
  let x ← valueAt (offset + 1) b
  if c = padding then
    if d ≠ padding then throw (.invalidByte padding (offset + 2))
    if x % 16 ≠ 0 then throw (.invalidLastSymbol b (offset + 1))
    return [firstByte w x]
  else
    let y ← valueAt (offset + 2) c
    if d = padding then
      if y % 4 ≠ 0 then throw (.invalidLastSymbol c (offset + 2))
      return [firstByte w x, secondByte x y]
    else
      let z ← valueAt (offset + 3) d
      return [firstByte w x, secondByte x y, thirdByte y z]

/-- The bytes of groups, the first of which begins at the given offset.  A last group of fewer
than four bytes is faulty whatever they are; which fault it has depends on them. -/
def decodeGroups : (offset : Nat) → List UInt8 → Except DecodeError (List UInt8)
  | _, [] => return []
  | offset, [a] => do
      let _ ← valueAt offset a
      throw (.invalidLength (offset + 1))
  | offset, [a, b] => do
      let _ ← valueAt offset a
      let _ ← valueAt (offset + 1) b
      throw .invalidPadding
  | offset, [a, b, c] => do
      let _ ← valueAt offset a
      let _ ← valueAt (offset + 1) b
      if c ≠ padding then
        let _ ← valueAt (offset + 2) c
      throw .invalidPadding
  | offset, [a, b, c, d] => decodeLastGroup offset a b c d
  | offset, a :: b :: c :: d :: rest => do
      let bytes ← decodeGroup offset a b c d
      return bytes ++ (← decodeGroups (offset + 4) rest)

/-- The bytes whose symbols these are.  One byte beyond whole groups is looked at first: unless it
is a symbol or `=`, it is the fault reported. -/
def decodeBytes (bytes : List UInt8) : Except DecodeError (List UInt8) :=
  match bytes.getLast? with
  | none => .ok []
  | some last =>
      if bytes.length % 4 = 1 ∧ last ≠ padding ∧ value? last = none then
        .error (.invalidByte last (bytes.length - 1))
      else decodeGroups 0 bytes

def decode (text : String) : Except DecodeError (List UInt8) := decodeBytes (Utf8.encode text)

end SignedSession.Base64
