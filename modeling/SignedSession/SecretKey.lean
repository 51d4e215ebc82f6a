import SignedSession.Bytes.Basic
import SignedSession.Text.Blank
import SignedSession.Text.Base64
import SignedSession.Hash.Hkdf
import SignedSession.Error

/-!
# The secret key

Thirty-two bytes, kept as base64 text.  The key itself authenticates nothing: for each purpose a
key of its own is derived from it, so a tag made for one purpose is of no use for another.
-/

set_option autoImplicit false

namespace SignedSession

abbrev SecretKey.byteLength : Nat := 32

structure SecretKey where
  bytes : Bytes SecretKey.byteLength
deriving DecidableEq

namespace SecretKey

def ofBytes (bytes : List UInt8) : Except Error SecretKey :=
  match Bytes.ofList? byteLength bytes with
  | some exact => .ok ⟨exact⟩
  | none => .error (.secretLength byteLength bytes.length)

/-- The key that a base64 text holds; blanks around the text do not count. -/
def ofBase64 (text : String) : Except Error SecretKey :=
  match Base64.decode (Blank.trim text) with
  | .ok bytes => ofBytes bytes
  | .error fault => .error (.secretEncoding fault)

def toBase64 (key : SecretKey) : String := Base64.encode key.bytes.toList

/-- A key shows nothing of itself in a diagnosis. -/
def describe (_ : SecretKey) : String := "SecretKey(<redacted>)"

/-! ## Keys for a purpose -/

inductive Purpose
  | usernameHash
  | sessionSignature
deriving DecidableEq

def Purpose.label : Purpose → String
  | usernameHash => "glance-auth/v1/username-hash"
  | sessionSignature => "glance-auth/v1/session-signature"

def derive (key : SecretKey) (purpose : Purpose) : Except Error (Bytes 32) :=
  match Hkdf.expand (Hkdf.extract none key.bytes.toList) (Utf8.encode purpose.label) 32 with
  | some derived => .ok derived
  | none => .error .keyDerivation

def tag (key : SecretKey) (purpose : Purpose) (message : List UInt8) : Except Error (Bytes 32) := do
  let derived ← key.derive purpose
  return hmac derived.toList message

end SecretKey
end SignedSession
