import SignedSession.Proofs.Digest
import SignedSession.Proofs.SubKey

/-!
# Derived keys by their standards

Expansion draws numbered blocks, each from the one before it, and the output is what the first of them hold.
The keys that occur are all of 32 bytes, half a block, so masking completes each with a constant.  Every tag
is then three nested codes over two hashes each, for every secret, purpose and message.
-/

set_option autoImplicit false

namespace SignedSession

/-! ## Codes under a key of 32 bytes -/

namespace Hmac

/-- The code of a message under a key of 32 bytes, which is completed to a block by 32 zeros. -/
def code (key : Bytes 32) (message : List UInt8) : Bytes 32 :=
  Sha256.digest (mask 0x5c key.toList ++ List.replicate 32 0x5c ++
    (Sha256.digest (mask 0x36 key.toList ++ List.replicate 32 0x36 ++ message)).toList)

theorem mask_keyBlock {key : List UInt8} (short : key.length ≤ 64) (byte : UInt8) :
    mask byte (keyBlock key) = mask byte key ++ List.replicate (64 - key.length) byte := by
  rw [keyBlock, if_pos short, mask, mask, List.map_append, List.map_replicate, UInt8.zero_xor]

end Hmac

theorem hmac_eq_code (key : Bytes 32) (message : List UInt8) :
    hmac key.toList message = Hmac.code key message := by
  have short : key.toList.length ≤ 64 := by
    rw [key.length_toList]
    decide
  rw [hmac, Hmac.mask_keyBlock short, Hmac.mask_keyBlock short, key.length_toList,
    sha256_eq_digest, sha256_eq_digest]
  rfl

/-! ## Expansion -/

namespace Hkdf

/-- The output block of a number, which is drawn from the block before it.  There is none numbered 0. -/
def numbered (key : Bytes 32) (label : List UInt8) : (number : Nat) → List UInt8
  | 0 => []
  | number + 1 =>
      (Hmac.code key (numbered key label number ++ label ++ [UInt8.ofNat (number + 1)])).toList

theorem outputBlocks_eq (key : Bytes 32) (label : List UInt8) (count number : Nat) :
    outputBlocks key label count (UInt8.ofNat (number + 1)) (numbered key label number) =
      (List.range' (number + 1) count).flatMap (numbered key label) := by
  -- on the blocks still to come; what is carried to the next one is the block just drawn
  induction count generalizing number with
  | zero => rfl
  | succ count hypothesis =>
      have next : UInt8.ofNat (number + 1) + 1 = UInt8.ofNat (number + 1 + 1) :=
        (UInt8.ofNat_add (number + 1) 1).symm
      rw [outputBlocks, hmac_eq_code, next, List.range'_succ, List.flatMap_cons, ← hypothesis]
      rfl

/-- Expansion gives the first bytes of the numbered blocks, of which there are 255. -/
theorem expand_eq_numbered (key : Bytes 32) (label : List UInt8) (length : Nat) :
    (expand key label length).map Bytes.toList =
      if length ≤ 255 * 32 then
        some (((List.range' 1 ((length + 31) / 32)).flatMap (numbered key label)).take length)
      else none := by
  rw [expand, maxLength]
  by_cases within : length ≤ 255 * 32
  · rw [if_pos within, if_pos within, Option.map_some, ← outputBlocks_eq key label _ 0]
    rfl
  · rw [if_neg within, if_neg within]
    rfl

/-- A key of 32 bytes is the first block, with nothing cut off. -/
theorem expand_eq_first (key : Bytes 32) (label : List UInt8) :
    (expand key label 32).map Bytes.toList = some (numbered key label 1) := by
  have whole : (numbered key label 1).length ≤ 32 := Nat.le_of_eq (Bytes.length_toList _)
  have single : (List.range' 1 ((32 + 31) / 32)).flatMap (numbered key label) =
      numbered key label 1 := List.append_nil _
  rw [expand_eq_numbered, if_pos (by decide), single, List.take_of_length_le whole]

end Hkdf

/-! ## Tags -/

namespace SecretKey

/-- The code of a message under the key that a secret gives for a label. -/
def code (key : SecretKey) (label : String) (message : List UInt8) : Bytes 32 :=
  Hmac.code
    (Hmac.code (Hmac.code ⟨List.replicate 32 0, List.length_replicate⟩ key.bytes.toList)
      (Utf8.encode label ++ [1]))
    message

theorem hmac_subKey (key : SecretKey) (purpose : Purpose) (message : List UInt8) :
    hmac (key.subKey purpose).toList message = key.code purpose.label message := by
  let zeros : Bytes 32 := ⟨List.replicate 32 0, List.length_replicate⟩
  rw [subKey, show List.replicate 32 (0 : UInt8) = zeros.toList from rfl, hmac_eq_code, hmac_eq_code,
    hmac_eq_code]
  rfl

/-- Every tag is a code under the key for its purpose, of 32 bytes, and there always is one. -/
theorem tags_eq_code (key : SecretKey) :
    (∀ (purpose : Purpose) (message : List UInt8),
      key.tag purpose message = .ok (key.code purpose.label message) ∧
      (key.code purpose.label message).toList.length = 32) ∧
    (∀ username : String,
      UsernameHash.ofUsername username key =
        .ok ⟨key.code "glance-auth/v1/username-hash" (Utf8.encode username)⟩) ∧
    (∀ payload : Bytes 40,
      Token.sign payload key = .ok (key.code "glance-auth/v1/session-signature" payload.toList)) ∧
    (∀ token : Token,
      token.checkSignature key =
        if token.signature = key.code "glance-auth/v1/session-signature" token.payload.toList then
          .quiet (.ok ())
        else .fail .invalidSignature .invalidSignature) ∧
    (∀ material : List UInt8,
      Hkdf.extract none material = Hkdf.extract (some (List.replicate 32 0)) material) ∧
    ∀ (derived : Bytes 32) (label : List UInt8),
      Hkdf.expand derived label 32 = some (Hmac.code derived (label ++ [1])) ∧
      (Hkdf.expand derived label 32).map Bytes.toList = some (Hkdf.numbered derived label 1) := by
  refine ⟨?_, ?_, ?_, ?_, ?_, ?_⟩
  · intro purpose message
    rw [tag_eq, hmac_subKey]
    exact ⟨rfl, Bytes.length_toList _⟩
  · intro username
    rw [UsernameHash.ofUsername_eq, UsernameHash.keyed, hmac_subKey]
    rfl
  · intro payload
    rw [Token.sign_eq, Token.signatureOf, hmac_subKey]
    rfl
  · intro token
    rw [Token.checkSignature_eq]
    simp only [Token.Authentic, Token.signatureOf, hmac_subKey]
    rfl
  · intro material
    rfl
  · intro derived label
    refine ⟨?_, Hkdf.expand_eq_first derived label⟩
    rw [Hkdf.expand_block, hmac_eq_code]

end SecretKey
end SignedSession
