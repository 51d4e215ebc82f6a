import SignedSession.Proofs.Alphabet
import SignedSession.UsernameHash
import Mathlib.Tactic.TFAE

/-!
# What a username hash is shown as

Bytes have one hexadecimal text, and the texts of `n` bytes are all those of `2 * n` lower-case digits:
a byte takes two digits also where the first of them is zero.  Base64 is as canonical, so whatever a
username hash is shown as, no byte of it is lost, and any two hashes that differ look different.
-/

set_option autoImplicit false

namespace SignedSession

namespace Hex

/-! ## Digits -/

def IsDigit (character : Char) : Prop :=
  '0' ≤ character ∧ character ≤ '9' ∨ 'a' ≤ character ∧ character ≤ 'f'

instance (character : Char) : Decidable (IsDigit character) :=
  inferInstanceAs (Decidable (_ ∨ _))

theorem isDigit_digit {value : Nat} (small : value < 16) : IsDigit (digit value) := by
  have all : ∀ v ∈ List.range 16, IsDigit (digit v) := by decide
  exact all value (List.mem_range.mpr small)

theorem exists_value?_of_isDigit {character : Char} (isDigit : IsDigit character) :
    ∃ value, value? character = some value := by
  rw [value?]
  by_cases decimal : '0' ≤ character ∧ character ≤ '9'
  · rw [if_pos decimal]
    exact ⟨_, rfl⟩
  · rw [if_neg decimal, if_pos (isDigit.resolve_left decimal)]
    exact ⟨_, rfl⟩

theorem eq_digit_of_value? {character : Char} {value : Nat} (read : value? character = some value) :
    value < 16 ∧ character = digit value := by
  rw [value?] at read
  split at read
  · next decimal =>
      cases read
      have bounds : 48 ≤ character.toNat ∧ character.toNat ≤ 57 := decimal
      have code : 48 + (character.toNat - 48) = character.toNat := by omega
      rw [digit, if_pos (by omega), code, Char.ofNat_toNat]
      exact ⟨by omega, rfl⟩
  · split at read
    · next letter =>
        cases read
        have bounds : 97 ≤ character.toNat ∧ character.toNat ≤ 102 := letter
        have code : 87 + (character.toNat - 87) = character.toNat := by omega
        rw [digit, if_neg (by omega), code, Char.ofNat_toNat]
        exact ⟨by omega, rfl⟩
    · cases read

/-! ## Pairs of digits -/

theorem encodeChars_cons {high low : Nat} (highSmall : high < 16) (lowSmall : low < 16)
    (rest : List UInt8) :
    encodeChars (UInt8.ofNat (high * 16 + low) :: rest) =
      digit high :: digit low :: encodeChars rest := by
  have byte : (UInt8.ofNat (high * 16 + low)).toNat = high * 16 + low := by
    rw [UInt8.toNat_ofNat']
    omega
  have first : (high * 16 + low) / 16 = high := by omega
  have second : (high * 16 + low) % 16 = low := by omega
  rw [encodeChars, byte, first, second]

theorem isDigit_of_mem_encodeChars {bytes : List UInt8} :
    ∀ character ∈ encodeChars bytes, IsDigit character := by
  induction bytes with
  | nil => simp [encodeChars]
  | cons byte rest ih =>
      have small := byte.toNat_lt
      simp only [encodeChars, List.forall_mem_cons]
      exact ⟨isDigit_digit (by omega), isDigit_digit (by omega), ih⟩

theorem encodeChars_of_decodeChars? {characters : List Char} {bytes : List UInt8}
    (read : decodeChars? characters = some bytes) : encodeChars bytes = characters := by
  induction characters using decodeChars?.induct generalizing bytes with
  | case1 =>
      cases read
      rfl
  | case2 => cases read
  | case3 first second rest ih =>
      obtain ⟨high, firstRead, read⟩ := Option.bind_eq_some_iff.mp read
      obtain ⟨low, secondRead, read⟩ := Option.bind_eq_some_iff.mp read
      obtain ⟨later, restRead, same⟩ := Option.bind_eq_some_iff.mp read
      cases same
      obtain ⟨highSmall, rfl⟩ := eq_digit_of_value? firstRead
      obtain ⟨lowSmall, rfl⟩ := eq_digit_of_value? secondRead
      rw [encodeChars_cons highSmall lowSmall, ih restRead]

theorem exists_encodeChars_of_isDigit {count : Nat} {characters : List Char}
    (length : characters.length = 2 * count) (all : ∀ character ∈ characters, IsDigit character) :
    ∃ bytes, bytes.length = count ∧ encodeChars bytes = characters := by
  -- on the number of pairs, since the characters are taken two at a time
  induction count generalizing characters with
  | zero =>
      have empty : characters = [] := List.eq_nil_of_length_eq_zero length
      subst empty
      exact ⟨[], rfl, rfl⟩
  | succ count ih =>
      match characters, length, all with
      | first :: second :: rest, length, all =>
        simp only [List.forall_mem_cons] at all
        obtain ⟨isFirst, isSecond, allRest⟩ := all
        obtain ⟨high, firstRead⟩ := exists_value?_of_isDigit isFirst
        obtain ⟨low, secondRead⟩ := exists_value?_of_isDigit isSecond
        obtain ⟨highSmall, rfl⟩ := eq_digit_of_value? firstRead
        obtain ⟨lowSmall, rfl⟩ := eq_digit_of_value? secondRead
        have lengthRest : rest.length = 2 * count := by
          simp only [List.length_cons] at length
          omega
        obtain ⟨bytes, bytesLength, encoded⟩ := ih lengthRest allRest
        refine ⟨UInt8.ofNat (high * 16 + low) :: bytes, ?_, ?_⟩
        · rw [List.length_cons, bytesLength]
        · rw [encodeChars_cons highSmall lowSmall, encoded]

/-! ## Texts -/

/-- Bytes have one hexadecimal text. -/
theorem decode?_eq_some_iff {text : String} {bytes : List UInt8} :
    decode? text = some bytes ↔ text = encode bytes := by
  constructor
  · intro read
    rw [encode, encodeChars_of_decodeChars? read, String.ofList_toList]
  · rintro rfl
    exact decode?_encode bytes

example : decode? "000aff" = some [0, 10, 255] ∧ decode? "0A" = none := by decide

theorem encode_injective {left right : List UInt8} (same : encode left = encode right) :
    left = right := by
  have read := decode?_encode left
  rw [same, decode?_encode] at read
  exact (Option.some.inj read).symm

/-- What holds `count` bytes is any text of `2 * count` digits. -/
theorem exists_encode_iff {text : String} {count : Nat} :
    (∃ bytes, bytes.length = count ∧ encode bytes = text) ↔
      text.length = 2 * count ∧ ∀ character ∈ text.toList, IsDigit character := by
  constructor
  · rintro ⟨bytes, rfl, rfl⟩
    rw [encode, String.length_ofList, String.toList_ofList, length_encodeChars]
    exact ⟨rfl, isDigit_of_mem_encodeChars⟩
  · rintro ⟨length, all⟩
    rw [← String.length_toList] at length
    obtain ⟨bytes, bytesLength, encoded⟩ := exists_encodeChars_of_isDigit length all
    refine ⟨bytes, bytesLength, ?_⟩
    rw [encode, encoded, String.ofList_toList]

end Hex

namespace UsernameHash

/-! ## Texts of a hash -/

theorem beq_iff_bytes_eq {left right : UsernameHash} :
    (left == right) = true ↔ left.bytes = right.bytes :=
  Bytes.sameBytes_iff left.bytes right.bytes

theorem toHex_eq_iff {left right : UsernameHash} :
    left.toHex = right.toHex ↔ left.bytes = right.bytes := by
  constructor
  · intro same
    exact Bytes.ext (Hex.encode_injective same)
  · intro same
    rw [toHex, same, toHex]

theorem describe_eq_iff {left right : UsernameHash} :
    left.describe = right.describe ↔ left.toHex = right.toHex := by
  rw [describe, describe, String.append_left_inj, String.append_right_inj]

theorem toBase64_eq_iff {left right : UsernameHash} :
    left.toBase64 = right.toBase64 ↔ left.bytes = right.bytes := by
  constructor
  · intro same
    exact Bytes.ext (Base64.encode_injective same)
  · intro same
    rw [toBase64, same, toBase64]

theorem exists_toHex_iff {text : String} :
    (∃ hash : UsernameHash, hash.toHex = text) ↔
      text.length = 64 ∧ ∀ character ∈ text.toList, Hex.IsDigit character := by
  rw [← @Hex.exists_encode_iff text 32]
  constructor
  · rintro ⟨hash, shown⟩
    exact ⟨hash.bytes.toList, hash.bytes.length_toList, shown⟩
  · rintro ⟨bytes, length, written⟩
    exact ⟨⟨⟨bytes, length⟩⟩, written⟩

theorem exists_toBase64_eq_append (hash : UsernameHash) :
    ∃ symbols : String, hash.toBase64 = symbols ++ "=" ∧
      ∀ character ∈ symbols.toList, Base64.InAlphabet character := by
  obtain ⟨symbols, written, all⟩ := Base64.exists_encode_eq_append hash.bytes.toList
  rw [hash.bytes.length_toList] at written
  exact ⟨symbols, written, all⟩

theorem length_toBase64 (hash : UsernameHash) : hash.toBase64.length = 44 := by
  rw [toBase64, Base64.length_encode, hash.bytes.length_toList]
  rfl

/-- A hash is shown as 64 hexadecimal digits, or as 43 symbols of base64 and one `=`, and each of these
texts reads back as its bytes and no other does.  Two hashes that are shown alike, in either way, are
the same. -/
theorem texts_tell_hash (hash : UsernameHash) :
    (hash.toHex.length = 64 ∧ (∀ character ∈ hash.toHex.toList, Hex.IsDigit character) ∧
      ∀ text, Hex.decode? text = some hash.bytes.toList ↔ text = hash.toHex) ∧
    (hash.toBase64.length = 44 ∧
      (∃ symbols : String, hash.toBase64 = symbols ++ "=" ∧
        ∀ character ∈ symbols.toList, Base64.InAlphabet character) ∧
      ∀ text, Base64.decode text = .ok hash.bytes.toList ↔ text = hash.toBase64) ∧
    ∀ other : UsernameHash,
      [(hash == other) = true, hash.bytes = other.bytes, hash.toHex = other.toHex,
        hash.describe = other.describe, hash.toBase64 = other.toBase64].TFAE := by
  obtain ⟨length, digits⟩ := exists_toHex_iff.mp ⟨hash, rfl⟩
  refine ⟨⟨length, digits, fun _ => Hex.decode?_eq_some_iff⟩,
    ⟨length_toBase64 hash, exists_toBase64_eq_append hash, fun _ => Base64.decode_eq_ok_iff⟩, ?_⟩
  intro other
  tfae_have 1 ↔ 2 := beq_iff_bytes_eq
  tfae_have 3 ↔ 2 := toHex_eq_iff
  tfae_have 4 ↔ 3 := describe_eq_iff
  tfae_have 5 ↔ 2 := toBase64_eq_iff
  tfae_finish

/-- Without the zeros in front, the bytes 1 and 27 and the bytes 17 and 11 would both be shown as `11b`.
They are shown as `011b` and `110b`, and so the two hashes look different. -/
theorem texts_tell_hash_by_leading_zeros :
    ∃ left right : UsernameHash,
      left.bytes.toList = 1 :: 27 :: List.replicate 30 0 ∧
      right.bytes.toList = 17 :: 11 :: List.replicate 30 0 ∧
      left.toHex = "011b" ++ String.ofList (List.replicate 60 '0') ∧
      right.toHex = "110b" ++ String.ofList (List.replicate 60 '0') ∧
      ('b' ∈ left.toHex.toList ∧ Hex.IsDigit 'b') ∧
      (left == right) = false ∧ left.describe ≠ right.describe ∧ left.toBase64 ≠ right.toBase64 := by
  obtain ⟨left, leftBytes⟩ : ∃ left : UsernameHash,
      left.bytes.toList = 1 :: 27 :: List.replicate 30 0 := ⟨⟨⟨_, rfl⟩⟩, rfl⟩
  obtain ⟨right, rightBytes⟩ : ∃ right : UsernameHash,
      right.bytes.toList = 17 :: 11 :: List.replicate 30 0 := ⟨⟨⟨_, rfl⟩⟩, rfl⟩
  obtain ⟨⟨-, digits, leftReads⟩, -, alike⟩ := texts_tell_hash left
  obtain ⟨⟨-, -, rightReads⟩, -⟩ := texts_tell_hash right
  have leftShown : left.toHex = "011b" ++ String.ofList (List.replicate 60 '0') := by
    symm
    rw [← leftReads, leftBytes]
    decide
  have rightShown : right.toHex = "110b" ++ String.ofList (List.replicate 60 '0') := by
    symm
    rw [← rightReads, rightBytes]
    decide
  have apart : left.toHex ≠ right.toHex := by
    rw [leftShown, rightShown]
    decide
  have member : 'b' ∈ left.toHex.toList := by
    rw [leftShown]
    decide
  refine ⟨left, right, leftBytes, rightBytes, leftShown, rightShown, ⟨member, digits _ member⟩,
    ?_, ?_, ?_⟩
  · exact Bool.eq_false_iff.mpr (mt ((alike right).out 0 2).mp apart)
  · exact mt ((alike right).out 3 2).mp apart
  · exact mt ((alike right).out 4 2).mp apart

end UsernameHash
end SignedSession
