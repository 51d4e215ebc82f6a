import SignedSession.Proofs.Base64
import Mathlib.Tactic.SplitIfs

/-!
# Base64 without padding

Whole groups of three bytes leave nothing to complete.  The texts of `3 * n` bytes are the texts of
`4 * n` characters of the alphabet, all of them: any four symbols are a group, so no such text is
refused.
-/

set_option autoImplicit false

namespace SignedSession.Base64

/-! ## Characters -/

def InAlphabet (character : Char) : Prop :=
  'A' ≤ character ∧ character ≤ 'Z' ∨ 'a' ≤ character ∧ character ≤ 'z' ∨
    '0' ≤ character ∧ character ≤ '9' ∨ character = '+' ∨ character = '/'

instance (character : Char) : Decidable (InAlphabet character) :=
  inferInstanceAs (Decidable (_ ∨ _))

theorem inAlphabet_iff_toNat {character : Char} :
    InAlphabet character ↔
      65 ≤ character.toNat ∧ character.toNat ≤ 90 ∨ 97 ≤ character.toNat ∧ character.toNat ≤ 122 ∨
        48 ≤ character.toNat ∧ character.toNat ≤ 57 ∨ character.toNat = 43 ∨
        character.toNat = 47 := by
  have plus : character = '+' ↔ character.toNat = 43 := Char.toNat_inj.symm
  have slash : character = '/' ↔ character.toNat = 47 := Char.toNat_inj.symm
  simp only [InAlphabet, Char.le_def, UInt32.le_iff_toNat_le, plus, slash]
  rfl

theorem isSymbol_iff_toNat {byte : UInt8} :
    IsSymbol byte ↔
      65 ≤ byte.toNat ∧ byte.toNat ≤ 90 ∨ 97 ≤ byte.toNat ∧ byte.toNat ≤ 122 ∨
        48 ≤ byte.toNat ∧ byte.toNat ≤ 57 ∨ byte.toNat = 43 ∨ byte.toNat = 47 := by
  have plus : byte = 43 ↔ byte.toNat = 43 := UInt8.toNat_inj.symm
  have slash : byte = 47 ↔ byte.toNat = 47 := UInt8.toNat_inj.symm
  simp only [IsSymbol, value?, UInt8.le_iff_toNat_le, UInt8.reduceToNat, plus, slash]
  split_ifs <;> simp <;> omega

theorem inAlphabet_ofUInt8_iff {byte : UInt8} :
    InAlphabet (Char.ofUInt8 byte) ↔ IsSymbol byte := by
  have code : (Char.ofUInt8 byte).toNat = byte.toNat := rfl
  rw [inAlphabet_iff_toNat, isSymbol_iff_toNat, code]

theorem exists_ofUInt8_of_inAlphabet {character : Char} (inAlphabet : InAlphabet character) :
    ∃ byte, IsSymbol byte ∧ character = Char.ofUInt8 byte := by
  have small : character.toNat < 256 := by
    rw [inAlphabet_iff_toNat] at inAlphabet
    omega
  have same : character = Char.ofUInt8 (UInt8.ofNat character.toNat) := by
    apply Char.toNat_inj.mp
    change character.toNat = (UInt8.ofNat character.toNat).toNat
    rw [UInt8.toNat_ofNat', Nat.mod_eq_of_lt small]
  rw [same, inAlphabet_ofUInt8_iff] at inAlphabet
  exact ⟨_, inAlphabet, same⟩

/-! ## Whole groups -/

theorem exists_encodeBytes_of_isSymbol {groups : Nat} {symbols : List UInt8}
    (length : symbols.length = 4 * groups) (all : ∀ byte ∈ symbols, IsSymbol byte) :
    ∃ bytes, bytes.length = 3 * groups ∧ encodeBytes bytes = symbols := by
  induction groups generalizing symbols with
  | zero =>
      have empty : symbols = [] := List.eq_nil_of_length_eq_zero length
      subst empty
      exact ⟨[], rfl, rfl⟩
  | succ groups ih =>
      match symbols, length, all with
      | a :: b :: c :: d :: rest, length, all =>
        simp only [List.forall_mem_cons] at all
        obtain ⟨⟨w, first⟩, ⟨x, second⟩, ⟨y, third⟩, ⟨z, fourth⟩, allRest⟩ := all
        obtain ⟨wSmall, rfl⟩ := eq_symbol_of_value? first
        obtain ⟨xSmall, rfl⟩ := eq_symbol_of_value? second
        obtain ⟨ySmall, rfl⟩ := eq_symbol_of_value? third
        obtain ⟨zSmall, rfl⟩ := eq_symbol_of_value? fourth
        have lengthRest : rest.length = 4 * groups := by
          simp only [List.length_cons] at length
          omega
        obtain ⟨bytes, bytesLength, encoded⟩ := ih lengthRest allRest
        refine ⟨firstByte w x :: secondByte x y :: thirdByte y z :: bytes, ?_, ?_⟩
        · simp only [List.length_cons, bytesLength]
          omega
        · rw [encodeBytes_group wSmall xSmall ySmall zSmall, encoded]

/-! ## Texts -/

theorem exists_ofAscii_of_inAlphabet {text : String}
    (all : ∀ character ∈ text.toList, InAlphabet character) :
    ∃ symbols, text = Utf8.ofAscii symbols ∧ ∀ byte ∈ symbols, IsSymbol byte := by
  suffices characters : ∃ symbols : List UInt8, text.toList = symbols.map Char.ofUInt8 ∧
      ∀ byte ∈ symbols, IsSymbol byte by
    obtain ⟨symbols, same, symbolsAll⟩ := characters
    refine ⟨symbols, ?_, symbolsAll⟩
    rw [Utf8.ofAscii, ← same, String.ofList_toList]
  generalize text.toList = characters at all
  induction characters with
  | nil => exact ⟨[], rfl, by simp⟩
  | cons character rest ih =>
      obtain ⟨inAlphabet, allRest⟩ := List.forall_mem_cons.mp all
      obtain ⟨byte, isSymbol, rfl⟩ := exists_ofUInt8_of_inAlphabet inAlphabet
      obtain ⟨symbols, rfl, symbolsAll⟩ := ih allRest
      exact ⟨byte :: symbols, rfl, List.forall_mem_cons.mpr ⟨isSymbol, symbolsAll⟩⟩

theorem length_encode (bytes : List UInt8) :
    (encode bytes).length = 4 * ((bytes.length + 2) / 3) := by
  rw [encode, Utf8.ofAscii, String.length_ofList, List.length_map, length_encodeBytes]

/-- A text is characters of the alphabet and then the `=` that complete its last group. -/
theorem exists_encode_eq_append (bytes : List UInt8) :
    ∃ symbols : String,
      encode bytes =
        symbols ++ String.ofList (List.replicate ((3 - bytes.length % 3) % 3) '=') ∧
      ∀ character ∈ symbols.toList, InAlphabet character := by
  obtain ⟨symbols, encoded, all⟩ := exists_encodeBytes_eq_append bytes
  refine ⟨Utf8.ofAscii symbols, ?_, ?_⟩
  · rw [encode, encoded, Utf8.ofAscii, List.map_append, List.map_replicate, String.ofList_append]
    rfl
  · intro character member
    rw [Utf8.ofAscii, String.toList_ofList] at member
    obtain ⟨byte, byteMember, rfl⟩ := List.mem_map.mp member
    exact inAlphabet_ofUInt8_iff.mpr (all byte byteMember)

theorem inAlphabet_of_mem_encode {bytes : List UInt8} (whole : bytes.length % 3 = 0) :
    ∀ character ∈ (encode bytes).toList, InAlphabet character := by
  obtain ⟨symbols, encoded, all⟩ := exists_encode_eq_append bytes
  rw [whole] at encoded
  rw [encoded, String.toList_append]
  exact fun character member => all character (by simpa using member)

/-- What holds `3 * groups` bytes is any text of `4 * groups` characters of the alphabet. -/
theorem decodes_to_groups_iff {text : String} {groups : Nat} :
    (∃ bytes, bytes.length = 3 * groups ∧ decode text = .ok bytes) ↔
      text.length = 4 * groups ∧ ∀ character ∈ text.toList, InAlphabet character := by
  constructor
  · rintro ⟨bytes, length, read⟩
    have written := decode_eq_ok_iff.mp read
    subst written
    refine ⟨?_, inAlphabet_of_mem_encode (by omega)⟩
    rw [length_encode]
    omega
  · rintro ⟨length, all⟩
    obtain ⟨symbols, rfl, symbolsAll⟩ := exists_ofAscii_of_inAlphabet all
    rw [Utf8.ofAscii, String.length_ofList, List.length_map] at length
    obtain ⟨bytes, bytesLength, rfl⟩ := exists_encodeBytes_of_isSymbol length symbolsAll
    exact ⟨bytes, bytesLength, decode_encode bytes⟩

end SignedSession.Base64
