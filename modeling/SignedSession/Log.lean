import SignedSession.Error
import SignedSession.Time.Calendar

/-!
# Log events

What issuing and checking tokens tells the log.  A `Logged` computation has a result and the events
it reports, in their order; a failure keeps the events before it.  No event has a place for a
secret, a hash or the bytes of a token.
-/

set_option autoImplicit false

namespace SignedSession

inductive Level
  | trace
  | debug
  | warn
  | error
deriving DecidableEq

def Level.name : Level → String
  | .trace => "TRACE"
  | .debug => "DEBUG"
  | .warn => "WARN"
  | .error => "ERROR"

inductive Event
  | issued (expiry : UInt64)
  | malformedToken
  | invalidSignature
  /-- A token was refused because its expiry, a second counted from 1970, had passed. -/
  | tokenExpired (expiry : Int)
  | randomSourceFailed (text : String)
deriving DecidableEq

namespace Event

def level : Event → Level
  | issued _ => .trace
  | malformedToken => .debug
  | invalidSignature => .warn
  | tokenExpired _ => .debug
  | randomSourceFailed _ => .error

def message : Event → String
  | issued expiry => "Issued session token expiring at " ++ toString expiry.toNat
  | malformedToken => "Rejected malformed session token"
  | invalidSignature => "Rejected session token with an invalid signature"
  | tokenExpired expiry =>
      "Rejected session token that expired at " ++ (Civil.ofUnix expiry).text
  | randomSourceFailed text => s!"Failed to read from the OS random source {text}"

def line (event : Event) : String := event.level.name ++ " " ++ event.message

end Event

structure Logged (α : Type) where
  result : Except Error α
  events : List Event

namespace Logged

variable {α β : Type}

def quiet (result : Except Error α) : Logged α := ⟨result, []⟩

def report (event : Event) : Logged Unit := ⟨.ok (), [event]⟩

def fail (error : Error) (event : Event) : Logged α := ⟨.error error, [event]⟩

def bind (first : Logged α) (next : α → Logged β) : Logged β :=
  match first.result with
  | .error error => ⟨.error error, first.events⟩
  | .ok value => ⟨(next value).result, first.events ++ (next value).events⟩

instance : Monad Logged where
  pure value := quiet (.ok value)
  bind := bind

end Logged
end SignedSession
