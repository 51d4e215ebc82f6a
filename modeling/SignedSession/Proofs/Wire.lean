import SignedSession.Proofs.Alphabet
import SignedSession.Token
import Mathlib.Data.List.Induction
import Mathlib.Data.Nat.Digits.Defs

/-!
# The text of a token

A token has one text, and a text that is read is that of the token it gives.  Its bytes are 24 whole
groups, so the texts that are read are those of 96 characters of the alphabet.  The payload is the
front of the bytes, and it determines the expiry and the username hash.
-/

set_option autoImplicit false

namespace SignedSession

theorem BigEndian.ofBytes_eq_ofDigits (bytes : List UInt8) :
    ofBytes bytes = Nat.ofDigits 256 (bytes.reverse.map UInt8.toNat) := by
  induction bytes using List.reverseRecOn with
  | nil => rfl
  | append_singleton front last ih =>
      rw [ofBytes_concat, ih, List.reverse_concat, List.map_cons, Nat.ofDigits_cons, Nat.mul_comm,
        Nat.add_comm]

namespace Token

theorem ofBytes_toBytes (token : Token) : ofBytes token.toBytes.toList = .ok token := by
  rw [ofBytes, Bytes.ofList?_toList]
  exact congrArg Except.ok (ofExactBytes_toBytes token)

theorem toBytes_of_ofBytes {bytes : List UInt8} {token : Token}
    (unpacked : ofBytes bytes = .ok token) : token.toBytes.toList = bytes := by
  rw [ofBytes] at unpacked
  split at unpacked
  · next exact found =>
      cases unpacked
      rw [toBytes_ofExactBytes]
      exact (Bytes.ofList?_eq_some_iff.mp found).symm
  · cases unpacked

theorem decode_encode (token : Token) : decode token.encode = .ok token := by
  rw [decode, encode, Base64.decode_encode]
  exact ofBytes_toBytes token

theorem decode_eq_ok_iff {text : String} {token : Token} :
    decode text = .ok token ↔ text = token.encode := by
  constructor
  · intro decoded
    rw [decode] at decoded
    split at decoded
    · next bytes read =>
        rw [encode, toBytes_of_ofBytes decoded]
        exact Base64.decode_eq_ok_iff.mp read
    · cases decoded
  · rintro rfl
    exact decode_encode token

theorem eq_malformedToken_of_decode {text : String} {error : Error}
    (refused : decode text = .error error) : error = .malformedToken := by
  rw [decode] at refused
  split at refused
  · rw [ofBytes] at refused
    split at refused
    · cases refused
    · cases refused
      rfl
  · cases refused
    rfl

theorem toBytes_injective {left right : Token} (same : left.toBytes = right.toBytes) :
    left = right := by
  rw [← ofExactBytes_toBytes left, same, ofExactBytes_toBytes]

theorem encode_injective {left right : Token} (same : left.encode = right.encode) : left = right :=
  toBytes_injective (Bytes.ext (Base64.encode_injective same))

theorem take_toBytes (token : Token) : token.toBytes.take payloadLength = token.payload :=
  Bytes.take_append _ _

theorem drop_toBytes (token : Token) : token.toBytes.drop payloadLength = token.signature :=
  Bytes.drop_append _ _

theorem payloadOf_eq_iff {expiry expiry' : UInt64} {hash hash' : UsernameHash} :
    payloadOf expiry hash = payloadOf expiry' hash' ↔ expiry = expiry' ∧ hash = hash' := by
  constructor
  · intro same
    have digits := congrArg (fun payload => (Bytes.take expiryLength payload).toList) same
    have bytes := congrArg (Bytes.drop expiryLength) same
    simp only [payloadOf, Bytes.take_append, Bytes.drop_append] at digits bytes
    have values := congrArg BigEndian.ofBytes digits
    have width : BigEndian.capacity expiryLength = 2 ^ 64 := by decide
    rw [BigEndian.ofBytes_toBytes, BigEndian.ofBytes_toBytes, width,
      Nat.mod_eq_of_lt expiry.toNat_lt, Nat.mod_eq_of_lt expiry'.toNat_lt] at values
    refine ⟨UInt64.toNat_inj.mp values, ?_⟩
    cases hash
    cases hash'
    exact congrArg UsernameHash.mk bytes
  · rintro ⟨rfl, rfl⟩
    rfl

/-! ## What is read -/

theorem ofBytes_eq_ok_iff {bytes : List UInt8} {token : Token} :
    ofBytes bytes = .ok token ↔ bytes = token.toBytes.toList := by
  constructor
  · intro unpacked
    exact (toBytes_of_ofBytes unpacked).symm
  · rintro rfl
    exact ofBytes_toBytes token

theorem ofBytes_of_length {bytes : List UInt8} (length : bytes.length = byteLength) :
    ∃ token, ofBytes bytes = .ok token := by
  refine ⟨ofExactBytes ⟨bytes, length⟩, ofBytes_eq_ok_iff.mpr ?_⟩
  rw [toBytes_ofExactBytes]

theorem ofBytes_of_length_ne {bytes : List UInt8} (length : bytes.length ≠ byteLength) :
    ofBytes bytes = .error .malformedToken := by
  rw [ofBytes, Bytes.ofList?_eq_none_iff.mpr length]

/-- Whether a text has 96 characters, all of them of the alphabet, to which `=` does not belong. -/
def IsText (text : String) : Prop :=
  text.length = 96 ∧ ∀ character ∈ text.toList, Base64.InAlphabet character

theorem exists_decode_iff {text : String} : (∃ token, decode text = .ok token) ↔ IsText text := by
  rw [IsText, ← @Base64.decodes_to_groups_iff text 24]
  constructor
  · rintro ⟨token, decoded⟩
    refine ⟨token.toBytes.toList, token.toBytes.length_toList, ?_⟩
    exact Base64.decode_eq_ok_iff.mpr (decode_eq_ok_iff.mp decoded)
  · rintro ⟨bytes, length, read⟩
    obtain ⟨token, unpacked⟩ := ofBytes_of_length length
    refine ⟨token, ?_⟩
    rw [decode, read]
    exact unpacked

theorem decode_of_not_isText {text : String} (foreign : ¬ IsText text) :
    decode text = .error .malformedToken := by
  cases decoded : decode text with
  | error error => rw [eq_malformedToken_of_decode decoded]
  | ok token => exact absurd (exists_decode_iff.mp ⟨token, decoded⟩) foreign

/-! ## The parts of the bytes -/

theorem toList_toBytes (token : Token) :
    token.toBytes.toList =
      BigEndian.toBytes expiryLength token.expiry.toNat ++
        (token.usernameHash.bytes.toList ++ token.signature.toList) := by
  rw [toBytes, Bytes.toList_append, payload, payloadOf, Bytes.toList_append, List.append_assoc]

theorem expiry_of_toBytes (token : Token) :
    token.expiry.toNat =
      Nat.ofDigits 256 ((token.toBytes.toList.take expiryLength).reverse.map UInt8.toNat) := by
  have digits : token.toBytes.toList.take expiryLength =
      BigEndian.toBytes expiryLength token.expiry.toNat := by
    rw [toList_toBytes]
    exact List.take_left' (BigEndian.length_toBytes _ _)
  rw [digits, ← BigEndian.ofBytes_eq_ofDigits, BigEndian.ofBytes_toBytes]
  exact (Nat.mod_eq_of_lt token.expiry.toNat_lt).symm

theorem usernameHash_of_toBytes (token : Token) :
    token.usernameHash.bytes.toList =
      (token.toBytes.toList.drop expiryLength).take UsernameHash.byteLength := by
  rw [toList_toBytes, List.drop_left' (BigEndian.length_toBytes _ _)]
  exact (List.take_left' token.usernameHash.bytes.length_toList).symm

instance : LawfulBEq Token where
  eq_of_beq {left right} same := by
    change (left.expiry == right.expiry && left.usernameHash == right.usernameHash &&
      left.signature.toList == right.signature.toList) = true at same
    simp only [Bool.and_eq_true, beq_iff_eq] at same
    obtain ⟨⟨expiry, usernameHash⟩, signature⟩ := same
    cases left
    cases right
    cases expiry
    cases usernameHash
    cases Bytes.ext signature
    rfl
  rfl {token} := by
    change (token.expiry == token.expiry && token.usernameHash == token.usernameHash &&
      token.signature.toList == token.signature.toList) = true
    simp

theorem beq_iff_toBytes_eq {left right : Token} :
    (left == right) = true ↔ left.toBytes = right.toBytes := by
  rw [beq_iff_eq]
  constructor
  · rintro rfl
    rfl
  · exact toBytes_injective

theorem beq_iff_encode_eq {left right : Token} :
    (left == right) = true ↔ left.encode = right.encode := by
  rw [beq_iff_eq]
  constructor
  · rintro rfl
    rfl
  · exact encode_injective

/-! ## Main statement -/

/-- Tokens and their texts correspond one to one, and so do tokens and strings of 72 bytes, of which
each part of a token is a slice. -/
theorem wire_format :
    (∀ text, (∃ token, decode text = .ok token) ↔ IsText text) ∧
    (∀ text, ¬ IsText text → decode text = .error .malformedToken) ∧
    (∀ token : Token, decode token.encode = .ok token) ∧
    (∀ text token, decode text = .ok token → token.encode = text) ∧
    (∀ bytes, (∃ token, ofBytes bytes = .ok token) ↔ bytes.length = 72) ∧
    (∀ bytes, bytes.length ≠ 72 → ofBytes bytes = .error .malformedToken) ∧
    (∀ bytes token, ofBytes bytes = .ok token →
      token.toBytes.toList = bytes ∧
        token.expiry.toNat = Nat.ofDigits 256 ((bytes.take 8).reverse.map UInt8.toNat) ∧
        token.usernameHash.bytes.toList = (bytes.drop 8).take 32 ∧
        token.signature.toList = bytes.drop 40 ∧ token.payload.toList = bytes.take 40) ∧
    ∀ left right : Token,
      ((left == right) = true ↔ left.toBytes = right.toBytes) ∧
        ((left == right) = true ↔ left.encode = right.encode) := by
  refine ⟨fun _ => exists_decode_iff, fun _ => decode_of_not_isText, decode_encode, ?_, ?_,
    fun _ => ofBytes_of_length_ne, ?_, fun _ _ => ⟨beq_iff_toBytes_eq, beq_iff_encode_eq⟩⟩
  · intro text token decoded
    exact (decode_eq_ok_iff.mp decoded).symm
  · intro bytes
    constructor
    · rintro ⟨token, unpacked⟩
      rw [ofBytes_eq_ok_iff.mp unpacked]
      exact token.toBytes.length_toList
    · exact ofBytes_of_length
  · intro bytes token unpacked
    cases ofBytes_eq_ok_iff.mp unpacked
    refine ⟨rfl, expiry_of_toBytes token, usernameHash_of_toBytes token, ?_, ?_⟩
    · exact congrArg Bytes.toList (drop_toBytes token).symm
    · exact congrArg Bytes.toList (take_toBytes token).symm

/-- The letter `A`, 96 times, is the text of a token.  With `=` for the last of them the text
has the same length and is refused.  Bytes that are all 255 hold the greatest expiry. -/
theorem wire_format_at_the_ends :
    (∃ token, decode (String.ofList (List.replicate 96 'A')) = .ok token ∧
      token.encode = String.ofList (List.replicate 96 'A')) ∧
    decode (String.ofList (List.replicate 95 'A' ++ ['='])) = .error .malformedToken ∧
    ∃ token, ofBytes (List.replicate 72 255) = .ok token ∧
      token.expiry.toNat = 18446744073709551615 ∧
      token.signature.toList = List.replicate 32 255 := by
  obtain ⟨accepted, refused, -, canonical, unpacked, -, parts, -⟩ := wire_format
  have letters : IsText (String.ofList (List.replicate 96 'A')) := by
    refine ⟨by rw [String.length_ofList, List.length_replicate], ?_⟩
    intro character member
    rw [String.toList_ofList] at member
    rw [List.eq_of_mem_replicate member]
    decide
  have padded : ¬ IsText (String.ofList (List.replicate 95 'A' ++ ['='])) := by
    intro isText
    have filler : Base64.InAlphabet '=' := by
      apply isText.2
      rw [String.toList_ofList]
      exact List.mem_append_right _ (List.mem_singleton.mpr rfl)
    exact absurd filler (by decide)
  obtain ⟨token, decoded⟩ := (accepted _).mpr letters
  obtain ⟨greatest, read⟩ := (unpacked (List.replicate 72 255)).mpr List.length_replicate
  obtain ⟨-, expiry, -, signature, -⟩ := parts _ _ read
  exact ⟨⟨token, decoded, canonical _ _ decoded⟩, refused _ padded, greatest, read, expiry, signature⟩

end Token
end SignedSession
