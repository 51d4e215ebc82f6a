import SignedSession.Setting
import SignedSession.Text.Base64
import SignedSession.Time.Duration

/-!
# Errors

Why an operation fails, as causes.  `Error.message` gives the text for people, where the wording is
settled here, and `Error.isTokenRejection` picks out the errors that mean no more than "log in again".
-/

set_option autoImplicit false

namespace SignedSession

inductive LifetimeFault
  | windowNotPositive
  | fractionOfSecond
  | windowNotShorter (renewalWindow validPeriod : Duration)
  | tooLarge (setting : Setting) (seconds : Nat)
deriving DecidableEq

def LifetimeFault.message : LifetimeFault → String
  | .windowNotPositive => "regeneration window must be positive"
  | .fractionOfSecond => "periods must be a whole number of seconds"
  | .windowNotShorter renewalWindow validPeriod =>
      let window := toString renewalWindow.seconds
      let period := toString validPeriod.seconds
      s!"regeneration window ({window}s) must be shorter than the valid period ({period}s)"
  | .tooLarge setting seconds =>
      let key := setting.key
      s!"{key} is too large: {seconds}"

inductive FileFault
  /-- The system does not give the content, for a reason in its own words. -/
  | unavailable (reason : String)
  | notUtf8
deriving DecidableEq

def FileFault.message : FileFault → String
  | .unavailable reason => reason
  | .notUtf8 => "stream did not contain valid UTF-8"

inductive Error
  | randomSourceUnavailable (text : String)
  | keyDerivation
  | secretLength (expected actual : Nat)
  | secretEncoding (fault : Base64.DecodeError)
  /-- A text that is no token, or a token with an expiry that is no instant. -/
  | malformedToken
  | invalidSignature
  | tokenExpired
  /-- The expiry of a new token would not be an instant after 1970. -/
  | expiryOutOfRange
  | invalidLifetime (fault : LifetimeFault)
  | unreadableFile (fault : FileFault)
  | invalidDocument
deriving DecidableEq

namespace Error

/-- How a lifetime is refused for a reason in any words. -/
def lifetimeMessage (reason : String) : String := "Invalid token lifetime: " ++ reason

/-- The text of an error for people.  Why a document is invalid is told in the words of whoever read it,
and these are not kept. -/
def message : Error → Option String
  | randomSourceUnavailable text => some s!"Secure random source unavailable: {text}"
  | keyDerivation => some "Key derivation failed"
  | secretLength expected actual =>
      some s!"Invalid secret key length: expected {expected} bytes, got {actual}"
  | secretEncoding fault => some ("Invalid secret key encoding " ++ fault.message)
  | malformedToken => some "Malformed Token"
  | invalidSignature => some "Invalid Token Signature"
  | tokenExpired => some "Token Expired"
  | expiryOutOfRange => some "Token expiry out of range"
  | invalidLifetime fault => some (lifetimeMessage fault.message)
  | unreadableFile fault => some fault.message
  | invalidDocument => none

/-- Whether an error means that the token presented is refused. -/
def isTokenRejection : Error → Bool
  | malformedToken | invalidSignature | tokenExpired => true
  | _ => false

end Error
end SignedSession
