import SignedSession.SecretKey
import SignedSession.Text.Hex

/-!
# Username hashes

A token names its user by a keyed hash, so the name stays with whoever holds the secret.  Two hashes
are compared without stopping at the first difference, which decides equality all the same: the
comparison is lawful.
-/

set_option autoImplicit false

namespace SignedSession

abbrev UsernameHash.byteLength : Nat := 32

structure UsernameHash where
  bytes : Bytes UsernameHash.byteLength
deriving DecidableEq

namespace UsernameHash

instance : BEq UsernameHash := ⟨fun left right => left.bytes.sameBytes right.bytes⟩

instance : LawfulBEq UsernameHash where
  eq_of_beq {left right} same := by
    have bytes : left.bytes = right.bytes := (Bytes.sameBytes_iff _ _).mp same
    cases left
    cases right
    simp_all
  rfl {hash} := (Bytes.sameBytes_iff hash.bytes hash.bytes).mpr rfl

def ofUsername (username : String) (key : SecretKey) : Except Error UsernameHash := do
  let tag ← key.tag .usernameHash (Utf8.encode username)
  return ⟨tag⟩

def belongsTo (hash : UsernameHash) (username : String) (key : SecretKey) : Except Error Bool := do
  let expected ← ofUsername username key
  return hash == expected

def toHex (hash : UsernameHash) : String := Hex.encode hash.bytes.toList

def toBase64 (hash : UsernameHash) : String := Base64.encode hash.bytes.toList

def describe (hash : UsernameHash) : String := "UsernameHash(" ++ hash.toHex ++ ")"

end UsernameHash
end SignedSession
