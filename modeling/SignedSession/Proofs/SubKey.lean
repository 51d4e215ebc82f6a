import SignedSession.Proofs.Result
import SignedSession.Session

/-!
# Keys for a purpose, in closed form

A derived key is one block of output and so never longer than allowed: deriving it cannot fail, and
neither can anything that is made with it.  Tags, username hashes and signatures are therefore total
functions of the secret.
-/

set_option autoImplicit false

namespace SignedSession

theorem Hkdf.expand_block (key : Bytes 32) (label : List UInt8) :
    expand key label 32 = some (hmac key.toList (label ++ [1])) := by
  have within : 32 ≤ maxLength := by decide
  rw [expand, if_pos within]
  refine congrArg some (Bytes.ext ?_)
  change (outputBlocks key label 1 1 []).take 32 = _
  rw [outputBlocks, outputBlocks, List.append_nil, List.nil_append]
  exact List.take_of_length_le (Nat.le_of_eq (Bytes.length_toList _))

namespace SecretKey

def uniform (byte : UInt8) : SecretKey := ⟨⟨List.replicate 32 byte, List.length_replicate⟩⟩

/-- The key for a purpose: the secret condensed under 32 zero bytes, then bound to the label. -/
def subKey (key : SecretKey) (purpose : Purpose) : Bytes 32 :=
  hmac (hmac (List.replicate 32 0) key.bytes.toList).toList (Utf8.encode purpose.label ++ [1])

theorem derive_eq (key : SecretKey) (purpose : Purpose) :
    key.derive purpose = .ok (key.subKey purpose) := by
  rw [derive, Hkdf.expand_block]
  rfl

theorem tag_eq (key : SecretKey) (purpose : Purpose) (message : List UInt8) :
    key.tag purpose message = .ok (hmac (key.subKey purpose).toList message) := by
  rw [tag, derive_eq]
  rfl

end SecretKey

namespace UsernameHash

def keyed (username : String) (key : SecretKey) : UsernameHash :=
  ⟨hmac (key.subKey .usernameHash).toList (Utf8.encode username)⟩

theorem ofUsername_eq (username : String) (key : SecretKey) :
    ofUsername username key = .ok (keyed username key) := by
  rw [ofUsername, SecretKey.tag_eq]
  rfl

theorem belongsTo_eq (hash : UsernameHash) (username : String) (key : SecretKey) :
    hash.belongsTo username key = .ok (decide (hash = keyed username key)) := by
  have same : (hash == keyed username key) = decide (hash = keyed username key) := by
    rw [Bool.eq_iff_iff, beq_iff_eq, decide_eq_true_iff]
  rw [belongsTo, ofUsername_eq, ok_bind, same]
  rfl

end UsernameHash

namespace Token

def signatureOf (key : SecretKey) (payload : Bytes payloadLength) : Bytes signatureLength :=
  hmac (key.subKey .sessionSignature).toList payload.toList

theorem sign_eq (payload : Bytes payloadLength) (key : SecretKey) :
    sign payload key = .ok (signatureOf key payload) := SecretKey.tag_eq key _ _

def Authentic (token : Token) (key : SecretKey) : Prop :=
  token.signature = signatureOf key token.payload

instance (token : Token) (key : SecretKey) : Decidable (token.Authentic key) :=
  inferInstanceAs (Decidable (_ = _))

theorem sameBytes_signatureOf_iff {token : Token} {key : SecretKey} :
    (signatureOf key token.payload).sameBytes token.signature = true ↔ token.Authentic key := by
  rw [Bytes.sameBytes_iff]
  exact eq_comm

theorem checkSignature_eq (token : Token) (key : SecretKey) :
    token.checkSignature key =
      if token.Authentic key then .quiet (.ok ()) else .fail .invalidSignature .invalidSignature := by
  rw [checkSignature, sign_eq, Logged.ok_bind]
  by_cases authentic : token.Authentic key
  · rw [if_pos (sameBytes_signatureOf_iff.mpr authentic), if_pos authentic]
    rfl
  · rw [if_neg (fun same => authentic (sameBytes_signatureOf_iff.mp same)), if_neg authentic]

end Token
end SignedSession
