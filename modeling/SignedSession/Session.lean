import SignedSession.Log
import SignedSession.Policy
import SignedSession.Time.Instant
import SignedSession.Token

/-!
# Sessions

A token is issued at login and checked on every request.  Nothing is stored: what a check finds
depends on the text, the secret, the policy and the time alone.  The checks have a fixed order,
which is that of trust: is it a token at all, did this secret sign it, is its expiry an instant,
and has that instant passed.
-/

set_option autoImplicit false

namespace SignedSession

def cookieName : String := "session_token"

structure Session where
  usernameHash : UsernameHash
  dueForRenewal : Bool
  /-- The last instant at which the token is accepted. -/
  expiresAt : Instant
deriving DecidableEq

namespace Token

def sign (payload : Bytes payloadLength) (key : SecretKey) : Except Error (Bytes signatureLength) :=
  key.tag .sessionSignature payload.toList

def checkSignature (token : Token) (key : SecretKey) : Logged Unit := do
  let expected ← .quiet (sign token.payload key)
  if expected.sameBytes token.signature then return ()
  else .fail .invalidSignature .invalidSignature

def expiresAt? (token : Token) : Option Instant := Instant.ofSeconds? token.expiry.toNat

end Token

namespace Policy

/-- The expiry of a token issued at `now`, if it is an instant after 1970. -/
def expiry? (policy : Policy) (now : Instant) : Option UInt64 := do
  let expiresAt ← now.shift? policy.validPeriod.seconds
  if 0 ≤ expiresAt.seconds then return UInt64.ofNat expiresAt.seconds.toNat else none

def issue (policy : Policy) (username : String) (key : SecretKey) (now : Instant) :
    Logged String := do
  let expiry ← .quiet ((policy.expiry? now).elim (.error .expiryOutOfRange) .ok)
  let usernameHash ← .quiet (UsernameHash.ofUsername username key)
  let signature ← .quiet (Token.sign (Token.payloadOf expiry usernameHash) key)
  .report (.issued expiry)
  return (Token.mk expiry usernameHash signature).encode

/-- Whether a token that expires at `expiresAt` is due for replacement at `now`.  When the beginning
of the renewal window is too early to be an instant, the token is due. -/
def isDue (policy : Policy) (expiresAt now : Instant) : Bool :=
  match expiresAt.shift? (-policy.renewalWindow.seconds) with
  | some windowBegin => windowBegin < now
  | none => true

def verify (policy : Policy) (text : String) (key : SecretKey) (now : Instant) :
    Logged Session := do
  let token ← match Token.decode text with
    | .ok token => pure token
    | .error error => .fail error .malformedToken
  token.checkSignature key
  let expiresAt ← .quiet (token.expiresAt?.elim (.error .malformedToken) .ok)
  if expiresAt < now then .fail .tokenExpired (.tokenExpired expiresAt.seconds)
  else return ⟨token.usernameHash, policy.isDue expiresAt now, expiresAt⟩

end Policy

def issueToken (username : String) (key : SecretKey) (now : Instant) : Logged String :=
  Policy.standard.issue username key now

def verifyToken (text : String) (key : SecretKey) (now : Instant) : Logged Session :=
  Policy.standard.verify text key now

end SignedSession
