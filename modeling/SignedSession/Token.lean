import SignedSession.Bytes.BigEndian
import SignedSession.UsernameHash

/-!
# Tokens

A token is 72 bytes: the expiry in eight bytes, the most significant first, the username hash and
the signature of these forty.  On the wire it is the base64 text of the bytes.  This module packs
and unpacks; it judges neither the signature nor the expiry.
-/

set_option autoImplicit false

namespace SignedSession
namespace Token

abbrev expiryLength : Nat := 8

abbrev signatureLength : Nat := 32

abbrev payloadLength : Nat := expiryLength + UsernameHash.byteLength

abbrev byteLength : Nat := payloadLength + signatureLength

def payloadOf (expiry : UInt64) (usernameHash : UsernameHash) : Bytes payloadLength :=
  Bytes.append ⟨BigEndian.toBytes expiryLength expiry.toNat, BigEndian.length_toBytes _ _⟩
    usernameHash.bytes

end Token

/-- The parts of a token.  The expiry counts seconds from 1970-01-01 00:00:00 UTC. -/
structure Token where
  expiry : UInt64
  usernameHash : UsernameHash
  signature : Bytes Token.signatureLength
deriving DecidableEq

namespace Token

instance : BEq Token where
  beq left right :=
    left.expiry == right.expiry && left.usernameHash == right.usernameHash &&
      left.signature.toList == right.signature.toList

def payload (token : Token) : Bytes payloadLength := payloadOf token.expiry token.usernameHash

def toBytes (token : Token) : Bytes byteLength := token.payload.append token.signature

def ofExactBytes (bytes : Bytes byteLength) : Token :=
  let payload : Bytes payloadLength := bytes.take payloadLength
  { expiry := UInt64.ofNat (BigEndian.ofBytes (payload.take expiryLength).toList)
    usernameHash := ⟨payload.drop expiryLength⟩
    signature := bytes.drop payloadLength }

def ofBytes (bytes : List UInt8) : Except Error Token :=
  match Bytes.ofList? byteLength bytes with
  | some exact => .ok (ofExactBytes exact)
  | none => .error .malformedToken

def encode (token : Token) : String := Base64.encode token.toBytes.toList

def decode (text : String) : Except Error Token :=
  match Base64.decode text with
  | .ok bytes => ofBytes bytes
  | .error _ => .error .malformedToken

/-- The token as a diagnosis shows it, without its signature. -/
def describe (token : Token) : String :=
  "SessionToken \x7b expiry: " ++ toString token.expiry.toNat ++ ", username_hash: " ++
    token.usernameHash.describe ++ ", .. \x7d"

theorem ofExactBytes_toBytes (token : Token) : ofExactBytes token.toBytes = token := by
  have whole : (BigEndian.ofBytes (BigEndian.toBytes expiryLength token.expiry.toNat)) =
      token.expiry.toNat := by
    rw [BigEndian.ofBytes_toBytes]
    exact Nat.mod_eq_of_lt token.expiry.toNat_lt
  simp [ofExactBytes, toBytes, payload, payloadOf, whole]

theorem toBytes_ofExactBytes (bytes : Bytes byteLength) : (ofExactBytes bytes).toBytes = bytes := by
  have digits := (Bytes.take expiryLength (Bytes.take payloadLength bytes)).length_toList
  have small := BigEndian.ofBytes_lt digits
  have expiry : payloadOf (ofExactBytes bytes).expiry (ofExactBytes bytes).usernameHash =
      bytes.take payloadLength := by
    have value : (UInt64.ofNat (BigEndian.ofBytes
        (Bytes.take expiryLength (Bytes.take payloadLength bytes)).toList)).toNat =
          BigEndian.ofBytes (Bytes.take expiryLength (Bytes.take payloadLength bytes)).toList := by
      rw [UInt64.toNat_ofNat']
      exact Nat.mod_eq_of_lt small
    simp only [ofExactBytes, payloadOf, value, BigEndian.toBytes_ofBytes digits]
    exact Bytes.append_take_drop (Bytes.take payloadLength bytes)
  simp only [toBytes, payload, expiry]
  exact Bytes.append_take_drop bytes

end Token
end SignedSession
