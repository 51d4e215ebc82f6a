import SignedSession.Hash.Sha256

/-!
# HMAC with SHA-256

The message authentication code of a message under a key: two hashes, each of which begins with
the key masked by a constant byte.
-/

set_option autoImplicit false

namespace SignedSession.Hmac

/-- The key as one block: hashed when it is longer than a block, then completed with zeros. -/
def keyBlock (key : List UInt8) : List UInt8 :=
  let short := if key.length ≤ 64 then key else (sha256 key).toList
  short ++ List.replicate (64 - short.length) 0

def mask (byte : UInt8) (bytes : List UInt8) : List UInt8 := bytes.map (· ^^^ byte)

end SignedSession.Hmac

namespace SignedSession

def hmac (key message : List UInt8) : Bytes 32 :=
  let block := Hmac.keyBlock key
  sha256 (Hmac.mask 0x5c block ++ (sha256 (Hmac.mask 0x36 block ++ message)).toList)

end SignedSession
