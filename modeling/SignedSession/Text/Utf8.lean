/-!
# UTF-8

Texts are hashed, decoded and read from files as bytes.  `encode` gives the bytes of a text,
`decode?` the text of bytes, and `decode?_eq_some_iff` says that bytes have a text exactly when
they are the encoding of it.
-/

set_option autoImplicit false

namespace SignedSession.Utf8

def encode (text : String) : List UInt8 :=
  text.toList.flatMap String.utf8EncodeChar

def decode? (bytes : List UInt8) : Option String :=
  String.fromUTF8? bytes.toByteArray

/-- The text of bytes below 128, one character a byte. -/
def ofAscii (bytes : List UInt8) : String :=
  String.ofList (bytes.map Char.ofUInt8)

theorem toByteArray_encode (text : String) : (encode text).toByteArray = text.toByteArray := by
  rw [← String.utf8Encode_toList]
  rfl

@[simp] theorem decode?_encode (text : String) : decode? (encode text) = some text := by
  simp only [decode?, toByteArray_encode, String.fromUTF8?, dif_pos text.isValidUTF8]
  rfl

theorem eq_encode_of_decode? {bytes : List UInt8} {text : String}
    (decoded : decode? bytes = some text) : bytes = encode text := by
  simp only [decode?, String.fromUTF8?] at decoded
  split at decoded
  · next valid =>
      have underlying : text.toByteArray = bytes.toByteArray := by
        cases decoded
        rfl
      have same := congrArg (fun array => array.data.toList) (toByteArray_encode text)
      simp only [underlying, List.toList_data_toByteArray] at same
      exact same.symm
  · cases decoded

theorem decode?_eq_some_iff {bytes : List UInt8} {text : String} :
    decode? bytes = some text ↔ bytes = encode text :=
  ⟨eq_encode_of_decode?, fun h => h ▸ decode?_encode text⟩

theorem encode_injective {left right : String} (same : encode left = encode right) :
    left = right := by
  have read := decode?_encode left
  rw [same, decode?_encode] at read
  exact (Option.some.inj read).symm

theorem utf8EncodeChar_ofUInt8 {byte : UInt8} (ascii : byte < 128) :
    String.utf8EncodeChar (Char.ofUInt8 byte) = [byte] := by
  have value : (Char.ofUInt8 byte).val = byte.toUInt32 := rfl
  have small : byte.toNat < 128 := UInt8.lt_iff_toNat_lt.mp ascii
  rw [String.utf8EncodeChar_eq_singleton, value]
  · simp
  · rw [Char.utf8Size_eq_one_iff, value, UInt32.le_iff_toNat_le]
    simp only [UInt8.toNat_toUInt32, UInt32.reduceToNat]
    omega

theorem encode_ofAscii {bytes : List UInt8} (ascii : ∀ byte ∈ bytes, byte < 128) :
    encode (ofAscii bytes) = bytes := by
  simp only [encode, ofAscii, String.toList_ofList]
  induction bytes with
  | nil => rfl
  | cons byte rest ih =>
      simp [utf8EncodeChar_ofUInt8 (ascii byte (by simp)), ih fun b h => ascii b (by simp [h])]

/-- A character beyond ASCII is written in bytes beyond ASCII. -/
theorem toNat_of_mem_utf8EncodeChar (c : Char) :
    ∀ byte ∈ String.utf8EncodeChar c, byte.toNat = c.toNat ∨ 128 ≤ byte.toNat := by
  have code : c.val.toNat = c.toNat := rfl
  have high {value : Nat} (least : 128 ≤ value) (most : value < 256) :
      128 ≤ (UInt8.ofNat value).toNat := by
    rwa [UInt8.toNat_ofNat', Nat.mod_eq_of_lt most]
  intro byte member
  simp only [String.utf8EncodeChar, code] at member
  split at member
  · rw [List.mem_singleton] at member
    rw [member, UInt8.toNat_ofNat']
    omega
  · right
    split at member
    · simp only [List.mem_cons, List.not_mem_nil, or_false] at member
      rcases member with rfl | rfl <;> exact high (by omega) (by omega)
    · split at member
      · simp only [List.mem_cons, List.not_mem_nil, or_false] at member
        rcases member with rfl | rfl | rfl <;> exact high (by omega) (by omega)
      · simp only [List.mem_cons, List.not_mem_nil, or_false] at member
        rcases member with rfl | rfl | rfl | rfl <;> exact high (by omega) (by omega)

end SignedSession.Utf8
